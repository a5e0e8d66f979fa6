import StoreTasks.Proofs.Extract.Columns
import StoreTasks.Proofs.Extract.Locality

/-!
# Proofs — Extract — idempotence

The entities of an extract make a load, and the request that the extract was resolved for gives the
same extract of that load (`resolve_idempotent`).

* Entities of different names always make a load, in which each is the only part of its name
  (`Load.accepted_of_nodup`, `Load.parts_of_nodup`).
* A resolved field is called as it was asked for, unless its entry *synthesizes* a name
  (`Means.named_or_synthesizes`): generated numbers are called `generate`, and historic ids after
  the entity that they come from.
* So a name that was asked for is found again among the resolved fields, as long as no entry
  synthesizes it (`Means.again`).  No entry synthesizes a keyword, which leaves the names of
  declared fields (`Unshadowed`).
-/

namespace StoreTasks

namespace Load

/-! ### Loads without repeated names -/

section Nodup

variable {load : Load} (nodup : (load.entities.map Entity.name).Nodup)
include nodup

/-- Entities of distinct names are the names of the load, in order. -/
theorem names_of_nodup : load.names = load.entities.map Entity.name :=
  distinct_of_nodup nodup

theorem parts_of_nodup {entity : Entity} (h : entity ∈ load.entities) :
    load.parts entity.name = [entity] := by
  obtain ⟨before, after, heq⟩ := List.append_of_mem h
  rw [heq, List.map_append, List.map_cons, List.nodup_middle, List.nodup_cons,
    ← List.map_append] at nodup
  have hother : ∀ other ∈ before ++ after, ¬ decide (other.name = entity.name) = true :=
    fun other hmem hname =>
      nodup.1 (of_decide_eq_true hname ▸ List.mem_map_of_mem hmem)
  obtain ⟨hbefore, hafter⟩ := List.forall_mem_append.mp hother
  rw [parts, heq, List.filter_append, List.filter_eq_nil_iff.mpr hbefore,
    List.filter_cons_of_pos (by simp), List.filter_eq_nil_iff.mpr hafter,
    List.nil_append]

/-- Entities of different names make a load. -/
theorem accepted_of_nodup (made : ∀ entity ∈ load.entities, entity.Made) : load.Accepted where
  made := made
  checked := by
    have sound : ∀ entity ∈ load.entities, entity.Sound := fun entity h => (made entity h).sound
    refine ofEntities_eq_ok_iff.mpr ⟨rfl, fun name hname => ?_⟩
    obtain ⟨entity, hentity, rfl⟩ := mem_names.mp hname
    refine ⟨_, (merged_eq_ok_iff sound).mpr ⟨hname, ?_, rfl⟩⟩
    rw [fieldsOf, parts_of_nodup nodup hentity, List.flatMap_singleton]
    exact (sound entity hentity).clashFree

end Nodup

end Load

namespace Field

/-- The field of a keyword is called by it, but for generated numbers. -/
theorem name_of_keyword {word : String} {field : Field} (h : (word, field) ∈ keywords) :
    field.name = word ∨ word = "autoincrement" ∧ field = autoincrement := by
  have hall : ∀ pair ∈ keywords,
      pair.2.name = pair.1 ∨ pair.1 = "autoincrement" ∧ pair.2 = autoincrement := by decide
  exact hall _ h

/-- The field of a keyword comes from one of the functions that make fields. -/
theorem made_of_keyword {word : String} {field : Field} (h : (word, field) ∈ keywords) :
    field.Made := by
  simp only [keywords, List.mem_cons, Prod.mk.injEq, List.not_mem_nil, or_false] at h
  rcases h with ⟨-, rfl⟩ | ⟨-, rfl⟩ | ⟨-, rfl⟩ | ⟨-, rfl⟩ | ⟨-, rfl⟩ | ⟨-, rfl⟩
  · exact made_plain _ (by decide)
  · exact made_plain _ (by decide)
  · exact .snapshot
  · exact .autoincrement
  · exact .duration (named_eq_ok_iff.mpr ⟨by decide, rfl⟩)
  · exact .duration (named_eq_ok_iff.mpr ⟨by decide, rfl⟩)

end Field

namespace Extract

/-! ### Names of resolved fields -/

/-- The entry asks for a computed field of a name that is not the entry. -/
inductive Synthesizes (declared : List Field) : Json → String → Prop where
  /-- The keyword of generated numbers, when no declared field has its name. -/
  | autoincrement (undeclared : ∀ f ∈ declared, f.name ≠ "autoincrement") :
      Synthesizes declared (.str "autoincrement") "generate"
  /-- An object that describes a historic id. -/
  | hid {spec : Json} {source : HidOrigin}
      (described : HidRequest.ReadAs spec
        ⟨some source.entity, some source.fields, source.through⟩) :
      Synthesizes declared (.obj [("hid", spec)]) ("hid-" ++ source.entity)

/-- No declared field is asked for by a name that another entry synthesizes. -/
def Unshadowed (declared : List Field) (requested : List Json) : Prop :=
  ∀ field ∈ declared, .str field.name ∈ requested →
    ∀ entry ∈ requested, ¬ Synthesizes declared entry field.name

section Means

variable {declared : List Field} {entry : Json} {word : String} {field other : Field}

/-- An entry asks for its field by name, or makes it from a keyword or a historic id. -/
theorem Means.named_or_synthesizes (means : Means declared entry field) :
    entry = .str field.name ∨ Synthesizes declared entry field.name := by
  cases means with
  | declared _ _ named => exact .inl (congrArg Json.str named.symm)
  | keyword undeclared keyword =>
      rcases Field.name_of_keyword keyword with hname | ⟨rfl, rfl⟩
      · exact .inl (congrArg Json.str hname.symm)
      · exact .inr (.autoincrement undeclared)
  | hid described => exact .inr (.hid described)

/-- Both names that are synthesized are told by their first letter. -/
theorem Synthesizes.head?_mem (h : Synthesizes declared entry word) :
    word.toList.head? ∈ [some 'g', some 'h'] := by
  cases h with
  | autoincrement => decide
  | @hid _ source =>
      rw [String.toList_append]
      exact List.mem_cons_of_mem _ List.mem_cons_self

/-- No name that is synthesized is a keyword. -/
theorem Synthesizes.not_keyword (h : Synthesizes declared entry word) :
    (word, field) ∉ Field.keywords := by
  have hletters : ∀ pair ∈ Field.keywords, pair.1.toList.head? ∉ [some 'g', some 'h'] := by decide
  exact fun hkeyword => hletters _ hkeyword h.head?_mem

theorem Means.unique (means : Means declared (.str word) field)
    (others : Means declared (.str word) other) : other = field :=
  Option.some.inj ((means_str_iff.mp others).symm.trans (means_str_iff.mp means))

/-- A field is found by its name when no other field has it. -/
theorem Means.of_mem (hmem : field ∈ declared) (named : field.name = word)
    (only : ∀ f ∈ declared, f.name = word → f = field) : Means declared (.str word) field := by
  obtain ⟨before, after, first, hbefore⟩ := List.eq_append_cons_of_mem hmem
  refine .declared first (fun f hf hname => hbefore ?_) named
  exact only f (first ▸ List.mem_append_left _ hf) hname ▸ hf

end Means

/-! ### The second time -/

section Again

variable {declared fields : List Field} {requested : List Json}
  (resolved : List.Forall₂ (Means declared) requested fields) {word : String} {field : Field}
include resolved

/-- What is called as it was asked for is one field, unless the name is synthesized as well. -/
theorem eq_of_name_eq (means : Means declared (.str word) field)
    (unsynthesized : ∀ entry ∈ requested, ¬ Synthesizes declared entry word) :
    ∀ other ∈ fields, other.name = word → other = field := by
  rintro other hother rfl
  obtain ⟨entry, hentry, other_means⟩ := exists_of_mem_right resolved hother
  rcases other_means.named_or_synthesizes with rfl | hsynthesizes
  · exact means.unique other_means
  · exact absurd hsynthesizes (unsynthesized entry hentry)

/-- An entry means the same field among the resolved fields as it did among the declared ones. -/
theorem Means.again (unshadowed : Unshadowed declared requested) {entry : Json}
    (hentry : entry ∈ requested) (means : Means declared entry field) :
    Means fields entry field := by
  obtain ⟨found, hfound, found_means⟩ := exists_of_mem_left resolved hentry
  cases means with
  | @declared word _ before after first earlier named =>
      have means : Means declared (.str word) field := .declared first earlier named
      have hmem : field ∈ declared := by simp [first]
      have only := eq_of_name_eq resolved means (named ▸ unshadowed field hmem (named ▸ hentry))
      exact .of_mem (means.unique found_means ▸ hfound) named only
  | @keyword word _ undeclared keyword =>
      have means : Means declared (.str word) field := .keyword undeclared keyword
      have only := eq_of_name_eq resolved means fun other _ hsynthesizes =>
        hsynthesizes.not_keyword keyword
      -- Generated numbers are not called by their keyword, which stays one.
      by_cases named : field.name = word
      · exact .of_mem (means.unique found_means ▸ hfound) named only
      · exact .keyword (fun f hf hname => named (only f hf hname ▸ hname)) keyword
  | hid described entity hne => exact .hid described entity hne

end Again

section Resolved

variable {load : Load} {default : List Timeframe} {timezone : String} {today : Calendar.Date}
  {selection : Selection} {entity : Entity}
  (resolved : Resolved load default timezone today selection entity)
include resolved

/-- A resolved entity comes from the functions that make entities. -/
theorem Resolved.made (accepted : load.Accepted) : entity.Made := by
  have fields_made : ∀ field ∈ entity.fields, field.Made := by
    intro field hfield
    obtain ⟨requested, -, hfields⟩ := resolved.fields
    obtain ⟨entry, -, means⟩ := exists_of_mem_right hfields hfield
    cases means with
    | declared first =>
        obtain ⟨part, hpart, hmem⟩ := List.mem_flatMap.mp
          (show field ∈ load.fieldsOf entity.name by simp [first])
        exact (accepted.made part (Load.mem_parts.mp hpart).1).fields_made field hmem
    | keyword _ keyword => exact Field.made_of_keyword keyword
    | hid _ hentity hne =>
        exact .hid (Field.ofHidOrigin_eq_ok_iff.mpr ⟨hentity, hne, Field.named_hid _, rfl⟩)
  have declared := Entity.declare_eq_ok_iff.mpr ⟨Load.name_not_blank accepted.sound
    resolved.declared, resolved.file_not_blank, resolved.fields_ne_nil, resolved.clashFree, rfl⟩
  exact ((Entity.Made.declare fields_made declared).withTimeframes entity.timeframes).withTimezone
    entity.timezone

/-- A selection means the same entity in a load that has only this entity of its name. -/
theorem Resolved.again {own : Load} (parts : own.parts entity.name = [entity])
    (unshadowed : ∀ requested, selection.fields = some requested →
      Unshadowed (load.fieldsOf entity.name) requested) :
    Resolved own default timezone today selection entity where
  name := resolved.name
  fields := by
    obtain ⟨requested, hrequested, hfields⟩ := resolved.fields
    have hown : own.fieldsOf entity.name = entity.fields := by
      rw [Load.fieldsOf, parts, List.flatMap_singleton]
    refine ⟨requested, hrequested, forall₂_imp_of_mem hfields fun entry hentry field means => ?_⟩
    rw [hown]
    exact means.again hfields (unshadowed requested hrequested) hentry
  timeframes := resolved.timeframes
  file := by
    rcases resolved.file with own_file | ⟨hnone, -⟩
    · exact .inl own_file
    · have hfirst : own.entity? entity.name = some entity := by
        rw [Load.entity?_eq_head?, parts, List.head?_cons]
      exact .inr ⟨hnone, entity, hfirst, rfl⟩
  timezone := resolved.timezone
  declared := by
    by_contra hnot
    rw [Load.parts_eq_nil_iff.mpr hnot] at parts
    cases parts
  fields_ne_nil := resolved.fields_ne_nil
  clashFree := resolved.clashFree
  timeframes_ne_nil := resolved.timeframes_ne_nil
  file_not_blank := resolved.file_not_blank

end Resolved

/-- **Resolution is idempotent.**  When a request selects every entity once, the entities of its
extract make a load of the selected names, in order, all of which the first load declares.  The
request gives the same extract of this load, provided that it asks for no declared field by a name
that another entry synthesizes. -/
theorem resolve_idempotent {load : Load} (accepted : load.Accepted) {request : Request}
    {selections : List Selection} (hselections : request.entities = some selections)
    (once : (selections.map Selection.entity).Nodup) {today : Calendar.Date} {extract : Extract}
    (h : resolve request load today = .ok extract) :
    ∃ own, Load.ofEntities extract.entities = .ok own ∧
      own.names.map some = selections.map Selection.entity ∧
      (∀ name ∈ own.names, name ∈ load.names) ∧
      ((∀ selection ∈ selections, ∀ name requested, selection.entity = some name →
          selection.fields = some requested → Unshadowed (load.fieldsOf name) requested) →
        resolve request own today = .ok extract) := by
  obtain ⟨htimeframes, htimezone, found, hfound, hentities⟩ := (resolve_eq_ok_iff accepted).mp h
  obtain rfl : selections = found := Option.some.inj (hselections.symm.trans hfound)
  have hnames : extract.entities.map (fun entity => some entity.name)
      = selections.map Selection.entity :=
    map_eq_map_of_forall₂ hentities fun selection entity resolved => resolved.name.symm
  have nodup : (extract.entities.map Entity.name).Nodup := by
    refine List.Nodup.of_map some ?_
    rw [List.map_map]
    exact hnames ▸ once
  have made : ∀ entity ∈ extract.entities, entity.Made := by
    intro entity hentity
    obtain ⟨selection, -, resolved⟩ := exists_of_mem_right hentities hentity
    exact resolved.made accepted
  have own_accepted : Load.Accepted ⟨extract.entities⟩ := Load.accepted_of_nodup nodup made
  refine ⟨⟨extract.entities⟩, own_accepted.checked, ?_, ?_, fun unshadowed => ?_⟩
  · rw [Load.names_of_nodup nodup, List.map_map]
    exact hnames
  · intro name hname
    obtain ⟨entity, hentity, rfl⟩ := Load.mem_names.mp hname
    obtain ⟨selection, -, resolved⟩ := exists_of_mem_right hentities hentity
    exact resolved.declared
  · refine (resolve_eq_ok_iff own_accepted).mpr
      ⟨htimeframes, htimezone, selections, hselections, ?_⟩
    have hmem : List.Forall₂ (fun selection entity => selection ∈ selections ∧
        Resolved load extract.timeframes extract.timezone today selection entity) selections
        extract.entities :=
      forall₂_imp_of_mem hentities fun selection hselection entity resolved =>
        ⟨hselection, resolved⟩
    refine (forall₂_imp_of_mem hmem.flip ?_).flip
    rintro entity hentity selection ⟨hselection, resolved⟩
    exact resolved.again (Load.parts_of_nodup nodup hentity) fun requested =>
      unshadowed selection hselection entity.name requested resolved.name

/-- An account, and a deal in two files that both have its id. -/
def numberedDeal : Load :=
  ⟨[⟨"Account", "accounts.csv", [.plain "Id" .recordId, .plain "snapshot" .attribute], [], "UTC"⟩,
    ⟨"Deal", "deals.csv", [.plain "Id" .recordId, .plain "Amount" .fact], [], "UTC"⟩,
    ⟨"Deal", "stages.csv", [.plain "Id" .recordId, .plain "Stage" .attribute], [], "UTC"⟩]⟩

/-- A request for entries of all kinds: declared fields, keywords that keep their name or do not,
and an id from another entity. -/
def numberedRequest : Request :=
  ⟨none, none, some [
    ⟨some "Deal", some [.str "Id", .str "Stage", .str "Id", .str "snapshot", .str "autoincrement",
      .str "velocity", .obj [("hid", .obj [("from_entity", .str "Account"),
        ("from_fields", .arr [.str "Id"])])]], none, none⟩,
    ⟨some "Account", some [.str "snapshot"], none, some "a.csv"⟩]⟩

/-- The extract of the request, given the latest timeframe. -/
def numberedExtract (latest : Timeframe) : Extract :=
  ⟨[⟨"Deal", "deals.csv", [.plain "Id" .recordId, .plain "Stage" .attribute, .plain "Id" .recordId,
      .snapshot, .autoincrement, .duration "velocity" .velocity, .hid ⟨"Account", ["Id"], none⟩],
      [latest], "UTC"⟩,
    ⟨"Account", "a.csv", [.plain "snapshot" .attribute], [latest], "UTC"⟩], [latest], "UTC"⟩

/-- In the load of the extract, the deal has one file, and the date of the extract is declared. -/
theorem resolve_idempotent_numberedDeal :
    numberedDeal.Accepted ∧ ∃ latest own,
      resolve numberedRequest numberedDeal ⟨2024, 5, 31, by decide⟩ = .ok (numberedExtract latest) ∧
      Load.ofEntities (numberedExtract latest).entities = .ok own ∧
      own.names = ["Deal", "Account"] ∧
      resolve numberedRequest own ⟨2024, 5, 31, by decide⟩ = .ok (numberedExtract latest) := by
  have accepted : numberedDeal.Accepted :=
    Load.accepted_of_ofJson (show Load.ofJson numberedDeal.toJson = .ok numberedDeal from rfl)
  obtain ⟨latest, hresolve⟩ : ∃ latest,
      resolve numberedRequest numberedDeal ⟨2024, 5, 31, by decide⟩
        = .ok (numberedExtract latest) :=
    ⟨⟨⟨2024, 5, 31, by decide⟩, ⟨2024, 5, 30, by decide⟩, .day, 1, .last, by decide⟩, by rfl⟩
  obtain ⟨own, hown, hnames, -, again⟩ :=
    resolve_idempotent accepted rfl (by decide) hresolve
  refine ⟨accepted, latest, own, hresolve, hown, ?_, again ?_⟩
  · exact List.map_injective_iff.mpr (Option.some_injective _) hnames
  · intro selection hselection name requested _ _ field hfield _ entry _ hsynthesizes
    have hletters : ∀ entity ∈ numberedDeal.entities, ∀ field ∈ entity.fields,
        field.name.toList.head? ∉ [some 'g', some 'h'] := by decide
    obtain ⟨part, hpart, hmem⟩ := List.mem_flatMap.mp hfield
    exact hletters part (Load.mem_parts.mp hpart).1 field hmem hsynthesizes.head?_mem

/-- A request for generated numbers, and for a record id that is called as they are. -/
def generateRequest : Request :=
  ⟨none, none, some [⟨some "Deal", some [.str "autoincrement", .str "generate"], none, none⟩]⟩

/-- The extract of the request, given the latest timeframe. -/
def generateExtract (latest : Timeframe) : Extract :=
  ⟨[⟨"Deal", "deals.csv", [.autoincrement, .plain "generate" .recordId], [latest], "UTC"⟩],
    [latest], "UTC"⟩

-- The second time the generated numbers are found under both names, and the record id is not.
example : ∃ latest,
    resolve generateRequest ⟨[⟨"Deal", "deals.csv", [.plain "generate" .recordId], [], "UTC"⟩]⟩
        ⟨2024, 5, 31, by decide⟩ = .ok (generateExtract latest) ∧
      resolve generateRequest ⟨(generateExtract latest).entities⟩ ⟨2024, 5, 31, by decide⟩
        = .error (.repeatedField "Deal" "generate") :=
  ⟨⟨⟨2024, 5, 31, by decide⟩, ⟨2024, 5, 30, by decide⟩, .day, 1, .last, by decide⟩, by rfl, by rfl⟩

end Extract

end StoreTasks
