import StoreTasks.Load
import StoreTasks.Proofs.Entity

/-!
# Proofs — Load

The check of a load is exact (`Load.merge_check_exact`).  Entities make a load exactly when, for
every name, the fields of all entities of that name are free of clashes, taken together in the
order of the entities.  When they are not, the refusal names the first entity with a clash and
the first field that clashes.  After the check a merged entity is never refused: it has those
fields, and only a name that no entity has cannot be merged.

`Load.Accepted` is the property of the loads that pass the check.
-/

namespace StoreTasks

/-! ### Distinct names -/

theorem mem_distinct {names : List String} {name : String} :
    name ∈ distinct names ↔ name ∈ names := by
  induction names with
  | nil => exact Iff.rfl
  | cons first rest ih =>
      rw [distinct, List.mem_cons, List.mem_cons, List.mem_filter, ih]
      by_cases h : name = first
      · simp [h]
      · simp [h]

/-- Names stand in the order in which they occur first. -/
theorem distinct_pairwise (names : List String) :
    (distinct names).Pairwise fun a b => names.idxOf a < names.idxOf b := by
  induction names with
  | nil => exact .nil
  | cons first rest ih =>
      have hlater : ∀ name, name ≠ first → (first :: rest).idxOf name = rest.idxOf name + 1 :=
        fun name hne => by rw [List.idxOf_cons_ne rest (Ne.symm hne)]
      refine List.pairwise_cons.mpr ⟨fun name hname => ?_, List.pairwise_filter.mpr ?_⟩
      · have hne : name ≠ first := by simpa using (List.mem_filter.mp hname).2
        rw [List.idxOf_cons_self, hlater name hne]
        exact Nat.succ_pos _
      · refine ih.imp fun {a b} hlt ha hb => ?_
        rw [hlater a (by simpa using ha), hlater b (by simpa using hb)]
        exact Nat.succ_lt_succ hlt

theorem nodup_distinct (names : List String) : (distinct names).Nodup :=
  (distinct_pairwise names).imp fun {a b} hlt heq => by
    subst heq
    exact Nat.lt_irrefl _ hlt

theorem distinct_of_nodup {names : List String} (h : names.Nodup) : distinct names = names := by
  induction names with
  | nil => rfl
  | cons first rest ih =>
      obtain ⟨hfirst, hrest⟩ := List.nodup_cons.mp h
      have hkeep : ∀ name ∈ rest, decide (name ≠ first) = true := fun name hname =>
        decide_eq_true fun heq => hfirst (heq ▸ hname)
      rw [distinct, ih hrest, List.filter_eq_self.mpr hkeep]

/-- The first name that is looked for is the same without the repetitions. -/
theorem find?_distinct (p : String → Bool) (names : List String) :
    (distinct names).find? p = names.find? p := by
  induction names with
  | nil => rfl
  | cons first rest ih =>
      rw [distinct, List.find?_cons, List.find?_cons, List.find?_filter, ← ih]
      cases hp : p first with
      | true => rfl
      | false =>
          -- Leaving out a name that is not looked for changes nothing.
          refine congrArg (List.find? · _) (funext fun name => ?_)
          by_cases hname : name = first
          · simp [hname, hp]
          · simp [hname]

namespace Load
open StoreTasks.Field (ClashFree FirstClash)

/-! ### Merged entities -/

/-- The fields of all entities of a name, one entity after another. -/
def fieldsOf (load : Load) (name : String) : List Field :=
  (load.parts name).flatMap Entity.fields

/-- What the entities of a name are merged to. -/
def mergedOf (load : Load) (name : String) : Entity :=
  ⟨name, mergedMark, load.fieldsOf name, [], defaultTimezone⟩

/-- The names of a load are those of its entities. -/
theorem mem_names {load : Load} {name : String} :
    name ∈ load.names ↔ ∃ entity ∈ load.entities, entity.name = name := by
  rw [names, mem_distinct, List.mem_map]

theorem mem_parts {load : Load} {name : String} {entity : Entity} :
    entity ∈ load.parts name ↔ entity ∈ load.entities ∧ entity.name = name := by
  simp [parts]

theorem parts_eq_nil_iff {load : Load} {name : String} :
    load.parts name = [] ↔ name ∉ load.names := by
  rw [List.eq_nil_iff_forall_not_mem, mem_names]
  simp only [mem_parts]
  exact ⟨fun h ⟨entity, hmem, hname⟩ => h entity ⟨hmem, hname⟩,
    fun h entity ⟨hmem, hname⟩ => h ⟨entity, hmem, hname⟩⟩

/-- A name without parts cannot be merged. -/
theorem merged_of_not_mem {load : Load} {name : String} (h : name ∉ load.names) :
    load.merged name = .error (.unableToMerge name) := by
  rw [merged, parts_eq_nil_iff.mpr h]

/-- The parts of a name are merged by declaring all their fields together, also when there is one.
-/
theorem merged_of_mem {load : Load} {name : String} (h : name ∈ load.names) :
    load.merged name = Entity.declare name mergedMark (load.fieldsOf name) := by
  have hparts : load.parts name ≠ [] := fun hnil => parts_eq_nil_iff.mp hnil h
  rw [merged, fieldsOf]
  split
  · next hnil => exact absurd hnil hparts
  · rfl

section Sound

variable {load : Load} (sound : ∀ entity ∈ load.entities, entity.Sound)
include sound

theorem name_not_blank {name : String} (h : name ∈ load.names) : Text.blank name = false := by
  obtain ⟨entity, hmem, rfl⟩ := mem_names.mp h
  exact (sound entity hmem).name_not_blank

theorem fieldsOf_ne_nil {name : String} (h : name ∈ load.names) : load.fieldsOf name ≠ [] := by
  obtain ⟨entity, hmem, hname⟩ := mem_names.mp h
  intro hnil
  exact (sound entity hmem).fields_ne_nil
    (List.flatMap_eq_nil_iff.mp hnil entity (mem_parts.mpr ⟨hmem, hname⟩))

/-- The entities of a name can be merged when their fields are free of clashes. -/
theorem merged_eq_ok_iff {name : String} {merged : Entity} :
    load.merged name = .ok merged ↔
      name ∈ load.names ∧ ClashFree (load.fieldsOf name) ∧ load.mergedOf name = merged := by
  by_cases h : name ∈ load.names
  · have hmark : Text.blank mergedMark = false := by decide
    simp only [merged_of_mem h, Entity.declare_eq_ok_iff, name_not_blank sound h, hmark,
      fieldsOf_ne_nil sound h, ne_eq, not_false_eq_true, true_and, h, mergedOf]
  · simp [merged_of_not_mem h, h]

/-- The merged entity of a known name is refused exactly for the first field that clashes among all
fields of its parts. -/
theorem merged_eq_error_iff {name : String} {refusal : Refusal} (h : name ∈ load.names) :
    load.merged name = .error refusal ↔
      ∃ field, FirstClash (load.fieldsOf name) field ∧
        refusal = .repeatedField name field.name := by
  rw [merged_of_mem h]
  exact Entity.declare_eq_error_iff (name_not_blank sound h) (by decide)
    (fieldsOf_ne_nil sound h)

end Sound

/-! ### The check -/

/-- The check of a name passes exactly when its parts can be merged. -/
theorem discard_merged_eq_ok_iff {load : Load} {name : String} :
    (discard (load.merged name) : Except Refusal Unit) = .ok () ↔
      ∃ merged, load.merged name = .ok merged := by
  cases load.merged name with
  | error e => simp [discard, Functor.mapConst, Function.comp, Except.map]
  | ok merged => simp [discard, Functor.mapConst, Function.comp, Except.map]

/-- The check of a name fails with the refusal of its merged entity. -/
theorem discard_merged_eq_error_iff {load : Load} {name : String} {refusal : Refusal} :
    (discard (load.merged name) : Except Refusal Unit) = .error refusal ↔
      load.merged name = .error refusal := by
  cases load.merged name with
  | error e => simp [discard, Functor.mapConst, Function.comp, Except.map]
  | ok merged => simp [discard, Functor.mapConst, Function.comp, Except.map]

/-- Entities make a load exactly when each name has a merged entity. -/
theorem ofEntities_eq_ok_iff {entities : List Entity} {load : Load} :
    ofEntities entities = .ok load ↔
      ⟨entities⟩ = load ∧ ∀ name ∈ load.names, ∃ merged, load.merged name = .ok merged := by
  simp only [ofEntities, List.forM_eq_forM, bind_eq_ok_iff, forM_eq_ok_iff,
    discard_merged_eq_ok_iff]
  refine ⟨?_, ?_⟩
  · rintro ⟨_, hall, ⟨⟩⟩
    exact ⟨rfl, hall⟩
  · rintro ⟨rfl, hall⟩
    exact ⟨(), hall, rfl⟩

/-- Entities are refused for the first name whose parts cannot be merged, with the refusal of that
name. -/
theorem ofEntities_eq_error_iff {entities : List Entity} {refusal : Refusal} :
    ofEntities entities = .error refusal ↔
      ∃ before name after, names ⟨entities⟩ = before ++ name :: after ∧
        (∀ earlier ∈ before, ∃ merged, Load.merged ⟨entities⟩ earlier = .ok merged) ∧
        Load.merged ⟨entities⟩ name = .error refusal := by
  have hforM : ofEntities entities = .error refusal ↔
      forM (names ⟨entities⟩) (fun name => discard (Load.merged ⟨entities⟩ name))
        = Except.error refusal := by
    simp only [ofEntities, List.forM_eq_forM]
    cases forM (names ⟨entities⟩)
      (fun name => (discard (Load.merged ⟨entities⟩ name) : Except Refusal Unit)) with
    | error e => simp [bind, Except.bind]
    | ok u => simp [bind, Except.bind, pure, Except.pure]
  simp only [hforM, forM_eq_error_iff, discard_merged_eq_ok_iff, discard_merged_eq_error_iff]

/-- The load is one that `ofEntities` accepts, of entities that are made. -/
structure Accepted (load : Load) : Prop where
  made : ∀ entity ∈ load.entities, entity.Made
  checked : ofEntities load.entities = .ok load

theorem Accepted.sound {load : Load} (accepted : load.Accepted) :
    ∀ entity ∈ load.entities, entity.Sound :=
  fun entity hmem => (accepted.made entity hmem).sound

/-- The names of an accepted load can be merged. -/
theorem Accepted.merged {load : Load} (accepted : load.Accepted) {name : String}
    (h : name ∈ load.names) :
    load.merged name = .ok (load.mergedOf name) := by
  obtain ⟨merged, hmerged⟩ := (ofEntities_eq_ok_iff.mp accepted.checked).2 name h
  obtain ⟨-, -, rfl⟩ := (merged_eq_ok_iff accepted.sound).mp hmerged
  exact hmerged

/-! ### Loads that are specified -/

/-- Entities that are read were made. -/
theorem made_of_entitiesOfJson {spec : Json} {entities : List Entity}
    (h : entitiesOfJson spec = .ok entities) : ∀ entity ∈ entities, entity.Made := by
  intro entity hentity
  unfold entitiesOfJson at h
  split at h
  · obtain ⟨item, -, hitem⟩ := exists_of_mem_right (mapM_eq_ok_iff.mp h) hentity
    exact .ofJson hitem
  · obtain ⟨single, hsingle, rfl⟩ := map_eq_ok_iff.mp h
    rw [List.mem_singleton.mp hentity]
    exact .ofJson hsingle
  · cases h

/-- A load that is made of a specification is accepted. -/
theorem accepted_of_ofJson {spec : Json} {load : Load} (h : ofJson spec = .ok load) :
    load.Accepted := by
  obtain ⟨entities, hentities, h⟩ := bind_eq_ok_iff.mp h
  obtain ⟨rfl, -⟩ := ofEntities_eq_ok_iff.mp h
  exact ⟨made_of_entitiesOfJson hentities, h⟩

/-- The entities of a load that is made of several specifications are those of each of them. -/
theorem exists_fragment_of_mem {fragments : List Json} {load : Load}
    (h : ofFragments fragments = .ok load) {entity : Entity} (hentity : entity ∈ load.entities) :
    ∃ fragment entities, entitiesOfJson fragment = .ok entities ∧ entity ∈ entities := by
  obtain ⟨lists, hlists, h⟩ := bind_eq_ok_iff.mp h
  obtain ⟨rfl, -⟩ := ofEntities_eq_ok_iff.mp h
  obtain ⟨list, hlist, hmem⟩ := List.mem_flatten.mp hentity
  obtain ⟨fragment, -, hfragment⟩ := exists_of_mem_right (mapM_eq_ok_iff.mp hlists) hlist
  exact ⟨fragment, list, hfragment, hmem⟩

/-- A load that is made of several specifications is accepted. -/
theorem accepted_of_ofFragments {fragments : List Json} {load : Load}
    (h : ofFragments fragments = .ok load) : load.Accepted where
  made := by
    intro entity hentity
    obtain ⟨fragment, entities, hfragment, hmem⟩ := exists_fragment_of_mem h hentity
    exact made_of_entitiesOfJson hfragment entity hmem
  checked := by
    obtain ⟨lists, -, h⟩ := bind_eq_ok_iff.mp h
    obtain ⟨rfl, -⟩ := ofEntities_eq_ok_iff.mp h
    exact h

/-! ### Exactness -/

/-- **The check of a load is exact.**  Made entities are accepted exactly when no two fields of
one name, in the entities of one name, are both neither record ids nor timestamps.  A refusal
names the first entity with such a clash, in the order of `names`, and the first of its fields
that clashes with an earlier one.  In an accepted load every name has a merged entity, marked as
such in place of a file, with all the fields of its entities in order, and every other name is
refused as unknown.  The names are
those of the entities, each once, in the order of their first occurrence. -/
theorem merge_check_exact {entities : List Entity} (made : ∀ entity ∈ entities, entity.Made) :
    ((∃ load, ofEntities entities = .ok load) ↔
      ∀ (name : String) (i j : Nat) (hi : i < (fieldsOf ⟨entities⟩ name).length)
        (hj : j < (fieldsOf ⟨entities⟩ name).length), i ≠ j →
          ¬ ((fieldsOf ⟨entities⟩ name)[i].Exclusive ∧ (fieldsOf ⟨entities⟩ name)[j].Exclusive ∧
            (fieldsOf ⟨entities⟩ name)[i].name = (fieldsOf ⟨entities⟩ name)[j].name)) ∧
    (∀ refusal, ofEntities entities = .error refusal →
      ∃ before name after field, names ⟨entities⟩ = before ++ name :: after ∧
        (∀ earlier ∈ before, ClashFree (fieldsOf ⟨entities⟩ earlier)) ∧
        FirstClash (fieldsOf ⟨entities⟩ name) field ∧
        refusal = .repeatedField name field.name ∧ refusal.kind = .incorrect) ∧
    (∀ load, ofEntities entities = .ok load → load.entities = entities ∧
      (∀ name ∈ load.names, ∃ merged, load.merged name = .ok merged ∧ merged.name = name ∧
        merged.file = "MERGED" ∧ merged.fields = fieldsOf load name) ∧
      (∀ name refusal, load.merged name = .error refusal ↔
        name ∉ load.names ∧ refusal = .unableToMerge name)) ∧
    (names ⟨entities⟩).Nodup ∧
    (∀ name, name ∈ names ⟨entities⟩ ↔ ∃ entity ∈ entities, entity.name = name) ∧
    (names ⟨entities⟩).Pairwise fun a b =>
      (entities.map Entity.name).idxOf a < (entities.map Entity.name).idxOf b := by
  have sound : ∀ entity ∈ Load.entities ⟨entities⟩, entity.Sound :=
    fun entity hmem => (made entity hmem).sound
  have hfree : ∀ name ∈ names ⟨entities⟩, (∃ merged, Load.merged ⟨entities⟩ name = .ok merged) ↔
      ClashFree (fieldsOf ⟨entities⟩ name) := fun name hname =>
    ⟨fun ⟨_, h⟩ => ((merged_eq_ok_iff sound).mp h).2.1,
      fun h => ⟨_, (merged_eq_ok_iff sound).mpr ⟨hname, h, rfl⟩⟩⟩
  refine ⟨?_, ?_, ?_, nodup_distinct _, fun name => mem_names, distinct_pairwise _⟩
  · simp only [← Field.clashFree_iff_getElem]
    refine ⟨?_, ?_⟩
    · rintro ⟨load, hload⟩ name
      obtain ⟨rfl, hall⟩ := ofEntities_eq_ok_iff.mp hload
      by_cases hname : name ∈ names ⟨entities⟩
      · exact (hfree name hname).mp (hall name hname)
      · -- A name that no entity has has no fields.
        rw [fieldsOf, parts_eq_nil_iff.mpr hname]
        exact .nil
    · intro hall
      exact ⟨⟨entities⟩, ofEntities_eq_ok_iff.mpr
        ⟨rfl, fun name hname => (hfree name hname).mpr (hall name)⟩⟩
  · intro refusal hrefused
    obtain ⟨before, name, after, hnames, hbefore, hname⟩ := ofEntities_eq_error_iff.mp hrefused
    have hmem : ∀ n, n ∈ before ++ name :: after → n ∈ names ⟨entities⟩ := fun n hn => hnames ▸ hn
    obtain ⟨field, hclash, rfl⟩ :=
      (merged_eq_error_iff sound (hmem name (by simp))).mp hname
    exact ⟨before, name, after, field, hnames,
      fun earlier h => (hfree earlier (hmem earlier (by simp [h]))).mp (hbefore earlier h),
      hclash, rfl, rfl⟩
  · intro load hload
    obtain ⟨rfl, hall⟩ := ofEntities_eq_ok_iff.mp hload
    refine ⟨rfl, fun name hname => ?_, fun name refusal => ?_⟩
    · obtain ⟨merged, hmerged⟩ := hall name hname
      obtain ⟨-, -, rfl⟩ := (merged_eq_ok_iff sound).mp hmerged
      exact ⟨_, hmerged, rfl, rfl, rfl⟩
    · by_cases hname : name ∈ names ⟨entities⟩
      · obtain ⟨merged, hmerged⟩ := hall name hname
        simp [hmerged, hname]
      · rw [merged_of_not_mem hname]
        exact ⟨fun h => ⟨hname, (Except.error.inj h).symm⟩, fun h => h.2 ▸ rfl⟩

/-- A deal in two files, with an account between them; both files have the column `Stage`. -/
def splitDeal : List Entity :=
  [⟨"Deal", "deals.csv", [.plain "Id" .recordId, .plain "Stage" .attribute], [], "UTC"⟩,
    ⟨"Account", "accounts.csv", [.plain "Id" .recordId, .plain "Stage" .attribute], [], "UTC"⟩,
    ⟨"Deal", "stages.csv", [.plain "Id" .recordId, .plain "Stage" .fact], [], "UTC"⟩]

/-- The column of both files of the deal is refused, those of the deal and the account are not. -/
theorem merge_check_exact_splitDeal :
    (∀ entity ∈ splitDeal, entity.Made) ∧ (¬ ∃ load, ofEntities splitDeal = .ok load) ∧
      ∃ load, ofEntities (splitDeal.take 2) = .ok load := by
  have made : ∀ entity ∈ splitDeal, entity.Made := by
    intro entity hmem
    simp only [splitDeal, List.mem_cons, List.not_mem_nil, or_false] at hmem
    rcases hmem with rfl | rfl | rfl
    all_goals
      refine Entity.made_of_declare (fun field hfield => ?_) rfl
      simp only [List.mem_cons, List.not_mem_nil, or_false] at hfield
      rcases hfield with rfl | rfl
      · exact Field.made_plain _ rfl
      · exact Field.made_plain _ rfl
  have hmerged : fieldsOf ⟨splitDeal⟩ "Deal" = [.plain "Id" .recordId, .plain "Stage" .attribute,
      .plain "Id" .recordId, .plain "Stage" .fact] := by decide
  refine ⟨made, fun haccepted => ?_, ⟨splitDeal.take 2⟩, rfl⟩
  have hfree := (merge_check_exact made).1.mp haccepted "Deal" 1 3
  simp only [hmerged] at hfree
  exact hfree (by decide) (by decide) (by decide) ⟨⟨nofun, nofun⟩, ⟨nofun, nofun⟩, rfl⟩

end Load

end StoreTasks
