import StoreTasks.Proofs.Extract

/-!
# Proofs — Extract — locality

An extract depends on few of the declarations of a load (`resolve_local`).

* Only the declarations of the selected names count, in their order among themselves.  Where these
  are the same, so is the answer of `resolve`, refusals included (`resolve_congr`).
* Declarations that follow those of a selected name add to what can be asked for
  (`Resolved.extend`).  They do not change what was found before, with one exception: a keyword
  means its computed field only as long as no declared field has its name.

Both rest on two facts about loads: the file of a selection is that of the first declaration of its
name (`entity?_eq_head?`), and the fields of a name are those of its declarations, one after
another, so that a longer list of declarations has a longer list of fields (`fieldsOf_prefix`).
-/

namespace StoreTasks

namespace Load

/-- The entity of a name is its first part. -/
theorem entity?_eq_head? (load : Load) (name : String) :
    load.entity? name = (load.parts name).head? := by
  rw [entity?, parts, List.head?_filter]

section SameParts

variable {load other : Load} {name : String} (same : load.parts name = other.parts name)
include same

theorem entity?_congr : load.entity? name = other.entity? name := by
  rw [entity?_eq_head?, entity?_eq_head?, same]

/-- The merged entity of a name depends on the parts of that name alone. -/
theorem merged_congr : load.merged name = other.merged name := by
  rw [merged, merged, same]

end SameParts

section PrefixParts

variable {load other : Load} {name : String} (longer : load.parts name <+: other.parts name)
include longer

/-- With more parts at the end, there are more fields at the end. -/
theorem fieldsOf_prefix : load.fieldsOf name <+: other.fieldsOf name := by
  obtain ⟨more, hmore⟩ := longer
  exact ⟨more.flatMap Entity.fields, by rw [fieldsOf, fieldsOf, ← hmore, List.flatMap_append]⟩

theorem mem_names_of_prefix (h : name ∈ load.names) : name ∈ other.names := by
  by_contra hnot
  rw [parts_eq_nil_iff.mpr hnot, List.prefix_nil] at longer
  exact parts_eq_nil_iff.mp longer h

theorem entity?_of_prefix {first : Entity} (h : load.entity? name = some first) :
    other.entity? name = some first := by
  obtain ⟨more, hmore⟩ := longer
  rw [entity?_eq_head?] at h ⊢
  rw [← hmore, List.head?_append, h, Option.some_or]

end PrefixParts

end Load

namespace Extract

/-! ### What a request names -/

/-- The request selects an entity of the name. -/
def Request.Selects (request : Request) (name : String) : Prop :=
  ∃ selections, request.entities = some selections ∧
    ∃ selection ∈ selections, selection.entity = some name

/-- The request asks for a field of an entity by its entry. -/
def Request.AsksFor (request : Request) (name : String) (entry : Json) : Prop :=
  ∃ selections, request.entities = some selections ∧
    ∃ selection ∈ selections, selection.entity = some name ∧
      ∃ requested, selection.fields = some requested ∧ entry ∈ requested

/-- The word stands for its computed field: it is a keyword, and no field of that name is declared
for the entity. -/
def MeansKeyword (load : Load) (name word : String) : Prop :=
  (∃ field, (word, field) ∈ Field.keywords) ∧ ∀ field ∈ load.fieldsOf name, field.name ≠ word

/-! ### The same declarations -/

/-- The merged entity of a name has that name. -/
theorem name_of_merged {load : Load} {name : String} {merged : Entity}
    (h : load.merged name = .ok merged) : merged.name = name := by
  unfold Load.merged at h
  split at h
  · cases h
  · obtain ⟨-, -, -, -, rfl⟩ := Entity.declare_eq_ok_iff.mp h
    rfl

theorem fileFor_congr {load other : Load} {merged : Entity}
    (same : load.parts merged.name = other.parts merged.name) (selection : Selection) :
    fileFor load merged selection = fileFor other merged selection := by
  rw [fileFor, fileFor, Load.entity?_congr same]

/-- A selection is resolved by the parts of its entity alone. -/
theorem resolveSelection_congr {load other : Load} {selection : Selection}
    (same : ∀ name, selection.entity = some name → load.parts name = other.parts name)
    (default : List Timeframe) (timezone : String) (today : Calendar.Date) :
    resolveSelection load default timezone today selection
      = resolveSelection other default timezone today selection := by
  refine bind_congr_of_ok fun name hname => ?_
  have hparts := same name (require_eq_ok_iff.mp hname)
  rw [Load.merged_congr hparts]
  refine bind_congr_of_ok fun merged hmerged => ?_
  -- What is left of the load is the file of the first declaration.
  obtain rfl := name_of_merged hmerged
  rw [fileFor_congr hparts]

/-- A request is resolved by the parts of the entities that it selects. -/
theorem resolve_congr {load other : Load} {request : Request}
    (same : ∀ name, request.Selects name → load.parts name = other.parts name)
    (today : Calendar.Date) : resolve request load today = resolve request other today := by
  refine bind_congr_of_ok fun timeframes _ => bind_congr_of_ok fun selections hselections => ?_
  have hall : selections.mapM
        (resolveSelection load timeframes (request.timezone.getD defaultTimezone) today)
      = selections.mapM
        (resolveSelection other timeframes (request.timezone.getD defaultTimezone) today) := by
    refine mapM_congr fun selection hmem => resolveSelection_congr (fun name hname => ?_) ..
    exact same name ⟨selections, require_eq_ok_iff.mp hselections, selection, hmem, hname⟩
  rw [hall]

/-! ### More declarations -/

/-- What an entry means is not changed by fields that are declared later, unless the entry is a
keyword and one of them has its name. -/
theorem Means.extend {declared more : List Field} {entry : Json} {field : Field}
    (means : Means declared entry field) (longer : declared <+: more)
    (keyword : ∀ word, entry = .str word → (∃ field, (word, field) ∈ Field.keywords) →
      (∀ f ∈ declared, f.name ≠ word) → ∀ f ∈ more, f.name ≠ word) : Means more entry field := by
  cases means with
  | @declared _ _ before after first earlier named =>
      obtain ⟨later, rfl⟩ := longer
      have hfirst : declared ++ later = before ++ field :: (after ++ later) := by
        rw [first, List.append_assoc, List.cons_append]
      exact .declared hfirst earlier named
  | keyword undeclared means => exact .keyword (keyword _ rfl ⟨_, means⟩ undeclared) means
  | hid described entity fields => exact .hid described entity fields

/-- With more parts at the end, a selection has the same file. -/
theorem FileOf.extend {load other : Load} {name file : String} {selection : Selection}
    (fileOf : FileOf load name selection file)
    (longer : load.parts name <+: other.parts name) : FileOf other name selection file := by
  rcases fileOf with own | ⟨hnone, first, hfirst, hfile⟩
  · exact .inl own
  · exact .inr ⟨hnone, first, Load.entity?_of_prefix longer hfirst, hfile⟩

/-- A selection means the same entity when there are more declarations of its name after those
that there were. -/
theorem Resolved.extend {load other : Load} {default : List Timeframe} {timezone : String}
    {today : Calendar.Date} {selection : Selection} {entity : Entity}
    (resolved : Resolved load default timezone today selection entity)
    (longer : load.parts entity.name <+: other.parts entity.name)
    (keywords : ∀ requested, selection.fields = some requested → ∀ word, .str word ∈ requested →
      MeansKeyword load entity.name word →
        ∀ field ∈ other.fieldsOf entity.name, field.name ≠ word) :
    Resolved other default timezone today selection entity where
  name := resolved.name
  fields := by
    obtain ⟨requested, hrequested, hfields⟩ := resolved.fields
    refine ⟨requested, hrequested, forall₂_imp_of_mem hfields fun entry hentry field means => ?_⟩
    refine means.extend (Load.fieldsOf_prefix longer) ?_
    rintro word rfl hkeyword hundeclared
    exact keywords requested hrequested word hentry ⟨hkeyword, hundeclared⟩
  timeframes := resolved.timeframes
  file := resolved.file.extend longer
  timezone := resolved.timezone
  declared := Load.mem_names_of_prefix longer resolved.declared
  fields_ne_nil := resolved.fields_ne_nil
  clashFree := resolved.clashFree
  timeframes_ne_nil := resolved.timeframes_ne_nil
  file_not_blank := resolved.file_not_blank

/-- **An extract does not depend on declarations that it does not select.**  Two accepted loads
that have the same declarations of every selected name, in the same order, give the same answer,
also when it is a refusal.  When for every selected name the second load has more declarations
after those of the first, an extract of the first is an extract of the second, provided that no
keyword that was asked for has become the name of a declared field. -/
theorem resolve_local {load other : Load} (accepted : load.Accepted)
    (other_accepted : other.Accepted) (request : Request) (today : Calendar.Date) :
    ((∀ name, request.Selects name → load.parts name = other.parts name) →
      resolve request load today = resolve request other today) ∧
    ∀ extract, resolve request load today = .ok extract →
      (∀ name, request.Selects name → load.parts name <+: other.parts name) →
      (∀ name word, request.AsksFor name (.str word) → MeansKeyword load name word →
        ∀ field ∈ other.fieldsOf name, field.name ≠ word) →
      resolve request other today = .ok extract := by
  refine ⟨fun same => resolve_congr same today, fun extract hextract longer keywords => ?_⟩
  obtain ⟨htimeframes, htimezone, selections, hselections, hentities⟩ :=
    (resolve_eq_ok_iff accepted).mp hextract
  refine (resolve_eq_ok_iff other_accepted).mpr
    ⟨htimeframes, htimezone, selections, hselections, forall₂_imp_of_mem hentities ?_⟩
  intro selection hmem entity resolved
  refine resolved.extend (longer _ ⟨selections, hselections, selection, hmem, resolved.name⟩) ?_
  intro requested hrequested word hword
  exact keywords entity.name word
    ⟨selections, hselections, selection, hmem, resolved.name, requested, hrequested, hword⟩

/-- A deal in one file. -/
def stageDeal : Load :=
  ⟨[⟨"Deal", "deals.csv", [.plain "Id" .recordId, .plain "Stage" .attribute], [], "UTC"⟩]⟩

/-- The same deal between accounts, with a second file. -/
def spreadDeal : Load :=
  ⟨[⟨"Account", "accounts.csv", [.plain "snapshot" .date], [], "UTC"⟩,
    ⟨"Deal", "deals.csv", [.plain "Id" .recordId, .plain "Stage" .attribute], [], "UTC"⟩,
    ⟨"Account", "names.csv", [.plain "Stage" .attribute], [], "UTC"⟩,
    ⟨"Deal", "amounts.csv", [.plain "Id" .recordId, .plain "Amount" .fact], [], "UTC"⟩]⟩

/-- A request for a column of the deal and for the date of the extract. -/
def stageRequest : Request :=
  ⟨none, none, some [⟨some "Deal", some [.str "Stage", .str "snapshot"], none, none⟩]⟩

/-- The request gives the same extract of both, although an account declares the keyword. -/
theorem resolve_local_spreadDeal :
    stageDeal.Accepted ∧ spreadDeal.Accepted ∧
      stageDeal.parts "Deal" <+: spreadDeal.parts "Deal" ∧
      stageDeal.parts "Deal" ≠ spreadDeal.parts "Deal" ∧
      ∃ today extract, resolve stageRequest stageDeal today = .ok extract ∧
        resolve stageRequest spreadDeal today = .ok extract := by
  have accepted : stageDeal.Accepted :=
    Load.accepted_of_ofJson (show Load.ofJson stageDeal.toJson = .ok stageDeal from rfl)
  have spread_accepted : spreadDeal.Accepted :=
    Load.accepted_of_ofJson (show Load.ofJson spreadDeal.toJson = .ok spreadDeal from rfl)
  have longer : stageDeal.parts "Deal" <+: spreadDeal.parts "Deal" := by decide
  obtain ⟨today, extract, hextract⟩ :
      ∃ today extract, resolve stageRequest stageDeal today = .ok extract := by
    have hok : (resolve stageRequest stageDeal ⟨2024, 5, 31, by decide⟩).isOk = true := by
      decide +kernel
    cases hresolve : resolve stageRequest stageDeal ⟨2024, 5, 31, by decide⟩ with
    | ok extract => exact ⟨_, extract, hresolve⟩
    | error refusal =>
        rw [hresolve] at hok
        cases hok
  refine ⟨accepted, spread_accepted, longer, by decide, today, extract, hextract, ?_⟩
  refine (resolve_local accepted spread_accepted stageRequest today).2 extract hextract ?_ ?_
  · rintro name ⟨selections, hselections, selection, hmem, hname⟩
    obtain rfl := Option.some.inj hselections
    obtain rfl := List.mem_singleton.mp hmem
    obtain rfl := Option.some.inj hname
    exact longer
  · rintro name word ⟨selections, hselections, selection, hmem, hname, -⟩ ⟨⟨_, hword⟩, -⟩
    obtain rfl := Option.some.inj hselections
    obtain rfl := List.mem_singleton.mp hmem
    obtain rfl := Option.some.inj hname
    -- None of the declared columns of the deal has the name of a keyword.
    have hfields : ∀ field ∈ spreadDeal.fieldsOf "Deal", ∀ pair ∈ Field.keywords,
        field.name ≠ pair.1 := by decide
    exact fun field hfield => hfields field hfield _ hword

end Extract

end StoreTasks
