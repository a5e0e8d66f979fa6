import StoreTasks.Entity
import StoreTasks.Proofs.Json.RoundTrip
import StoreTasks.Proofs.Sequencing

/-!
# Proofs — Read task

* `readTask_eq_map`: the style of the read maps decides nothing but how they are written.
* `fits_readTask`: a read task nests fourteen levels deep at most, whatever its fields are, and
  its numbers are small.
* `readTask_styles_agree`: so the text of the inline read maps, alone or inside a printed
  document, is read back as the structured ones.
-/

namespace StoreTasks
open Document

/-! ### The depth of documents -/

namespace Document

theorem Op.toJsonList_eq_map (ops : List Op) : Op.toJsonList ops = ops.map Op.toJson := by
  induction ops with
  | nil => rfl
  | cons op rest ih => rw [Op.toJsonList, ih, List.map_cons]

/-- An operation takes two levels more than its parts. -/
theorem Op.fits_node {levels : Nat} (type : String) {data : Option Literal} {ops : List Op}
    (hdata : ∀ literal ∈ data, Json.Fits levels literal.toJson)
    (hops : ∀ op ∈ ops, Json.Fits levels op.toJson) :
    Json.Fits (levels + 2) (Op.node type data ops).toJson := by
  rw [Op.toJson.eq_def]
  refine .obj fun m hm => ?_
  rcases List.mem_append.mp hm with hm | hm
  · rcases List.mem_append.mp hm with hm | hm
    · rw [List.mem_singleton.mp hm]
      exact .str _
    · cases data with
      | none => exact absurd hm List.not_mem_nil
      | some literal =>
          rw [List.mem_singleton.mp hm]
          exact (hdata literal rfl).succ
  · cases ops with
    | nil => exact absurd hm List.not_mem_nil
    | cons op rest =>
        rw [List.mem_singleton.mp hm, Op.toJsonList_eq_map, ← List.map_cons]
        exact .arr_map hops

theorem Op.fits_leaf {levels : Nat} (type data : String) :
    Json.Fits (levels + 2) (Op.leaf type data).toJson :=
  Op.fits_node type (fun _ h => Option.some.inj h ▸ .str data) (List.forall_mem_nil _)

theorem Op.fits_branch {levels : Nat} (type : String) {ops : List Op}
    (hops : ∀ op ∈ ops, Json.Fits levels op.toJson) :
    Json.Fits (levels + 2) (Op.branch type ops).toJson :=
  Op.fits_node type (fun literal h => absurd h (Option.not_mem_none literal)) hops

theorem Op.fits_const {levels : Nat} {n : Int} (hn : n = 0 ∨ n = 1) :
    Json.Fits (levels + 2) (Op.const n).toJson := by
  refine Op.fits_node "const" (fun literal h => ?_) (List.forall_mem_nil _)
  obtain rfl := Option.some.inj h
  rcases hn with rfl | rfl
  · exact .int (by decide) (by decide)
  · exact .int (by decide) (by decide)

theorem Op.fits_single {levels : Nat} {a : Op} (ha : Json.Fits levels a.toJson) :
    ∀ op ∈ [a], Json.Fits levels op.toJson :=
  fun _ h => List.mem_singleton.mp h ▸ ha

theorem Op.fits_pair {levels : Nat} {a b : Op} (ha : Json.Fits levels a.toJson)
    (hb : Json.Fits levels b.toJson) : ∀ op ∈ [a, b], Json.Fits levels op.toJson :=
  List.forall_mem_cons.mpr ⟨ha, Op.fits_single hb⟩

theorem Column.fits_toJson {levels : Nat} {column : Column}
    (h : Json.Fits levels column.definition.toJson) : Json.Fits (levels + 1) column.toJson :=
  .obj (.member (.str _) (.member (.str _) (.member h .no_members)))

end Document

/-- A historic id is the deepest definition, of eight levels. -/
theorem Field.fits_hidDefinition (source : HidOrigin) :
    Json.Fits 8 (hidDefinition source).toJson := by
  have htarget : Json.Fits 6 (Op.node "entity" (some (.text source.entity))
      (source.fields.map (Op.leaf "stream"))).toJson :=
    Op.fits_node _ (fun _ h => Option.some.inj h ▸ .str source.entity)
      (List.forall_mem_map.mpr fun field _ => Op.fits_leaf "stream" field)
  refine Op.fits_branch "historicid" (Op.fits_pair ?_ htarget)
  split
  · exact Op.fits_leaf _ _
  · exact Op.fits_node _ (fun _ h => absurd h (Option.not_mem_none _)) (List.forall_mem_nil _)

/-- The definition of a column nests eight levels deep at most. -/
theorem Field.fits_column {field : Field} {column : Column} (h : field.column = .ok column) :
    Json.Fits 8 column.definition.toJson := by
  cases field with
  | plain name type =>
      obtain ⟨op, -, h⟩ := bind_eq_ok_iff.mp h
      obtain ⟨definition, -, h⟩ := bind_eq_ok_iff.mp h
      cases h
      exact Op.fits_branch definition (Op.fits_single (Op.fits_leaf op name))
  | snapshot | autoincrement =>
      cases h
      exact Op.fits_leaf _ _
  | hid source =>
      cases h
      exact Field.fits_hidDefinition source
  | duration name type =>
      -- The deepest definition there is: a case of options, one of them on a comparison.
      cases h
      have hclosed : Json.Fits 4 (Op.branch "=" [.leaf "stream" "IsClosed",
          .leaf "match" "false"]).toJson :=
        Op.fits_branch "=" (Op.fits_pair (Op.fits_leaf _ _) (Op.fits_leaf _ _))
      have hstage : Json.Fits 4 (Op.branch "duration" [.leaf "stream" "StageName"]).toJson :=
        Op.fits_branch "duration" (Op.fits_single (Op.fits_leaf _ _))
      have hdivision : Json.Fits 6 (Op.branch "option" [.const 1, .const 0]).toJson :=
        Op.fits_branch "option" (Op.fits_pair (Op.fits_const (.inr rfl)) (Op.fits_const (.inl rfl)))
      exact Op.fits_branch "case"
        (Op.fits_pair (Op.fits_branch "option" (Op.fits_pair hclosed hstage)) hdivision)
  | velocity =>
      cases h
      exact Op.fits_branch "velocity" (Op.fits_single (Op.fits_leaf _ _))

/-! ### Read tasks -/

theorem Timeframe.fits_window {levels : Nat} (timeframe : Timeframe) :
    Json.Fits (levels + 1) timeframe.window.toJson := by
  have hinterval : Json.Fits levels (.num (.int timeframe.interval)) := by
    have hlt : timeframe.interval < 0x1_0000_0000 := timeframe.isInterval
    exact .int (by omega) (by omega)
  exact .obj (.member (.str _) (.member (.str _) (.member (.str _) (.member (.str _)
    (.member hinterval .no_members)))))

namespace Entity

/-- A read task is made when the entity has an identifier, a timeframe and columns for its fields.
-/
theorem readTask_eq_ok_iff {entity : Entity} {pid : String} {style : ReadMapStyle}
    {task : ReadTask} :
    entity.readTask pid style = .ok task ↔
      ∃ identifier columns, entity.identifier = .ok identifier ∧ entity.timeframes ≠ [] ∧
        List.Forall₂ (fun field column => Field.column field = .ok column) entity.fields columns ∧
        ⟨entity.name, entity.timezone, style,
          [⟨Destination.ofExtract pid entity.name entity.file, identifier.name, columns⟩],
          entity.timeframes.map Timeframe.window⟩ = task := by
  simp only [readTask, bind_eq_ok_iff]
  refine ⟨?_, ?_⟩
  · rintro ⟨identifier, hidentifier, h⟩
    split at h
    · obtain ⟨_, hthrow, -⟩ := bind_eq_ok_iff.mp h
      cases hthrow
    · next hne =>
        obtain ⟨columns, hcolumns, h⟩ := bind_eq_ok_iff.mp h
        exact ⟨identifier, columns, hidentifier, by simpa using hne, mapM_eq_ok_iff.mp hcolumns,
          Except.ok.inj h⟩
  · rintro ⟨identifier, columns, hidentifier, hne, hcolumns, rfl⟩
    refine ⟨identifier, hidentifier, ?_⟩
    rw [if_neg (by simpa using hne)]
    exact bind_eq_ok_iff.mpr ⟨columns, mapM_eq_ok_iff.mpr hcolumns, rfl⟩

/-- The style decides nothing but how the read maps are written. -/
theorem readTask_eq_map (entity : Entity) (pid : String) (style : ReadMapStyle) :
    entity.readTask pid style
      = (entity.readTask pid .structured).map fun task => { task with style } := by
  unfold readTask
  cases entity.identifier with
  | error refusal => rfl
  | ok identifier =>
      cases entity.timeframes with
      | nil => rfl
      | cons first rest =>
          cases entity.fields.mapM Field.column with
          | error refusal => rfl
          | ok columns => rfl

/-- A read map is far from the depth at which reading ends. -/
theorem fits_readMap {entity : Entity} {pid : String} {style : ReadMapStyle} {task : ReadTask}
    (h : entity.readTask pid style = .ok task) :
    Json.Fits 12 (ReadMap.listToJson task.readMap) := by
  obtain ⟨identifier, columns, -, -, hcolumns, rfl⟩ := readTask_eq_ok_iff.mp h
  have hcolumn : ∀ column ∈ columns, Json.Fits 9 column.toJson := by
    intro column hmem
    obtain ⟨field, -, hfield⟩ := exists_of_mem_right hcolumns hmem
    exact Column.fits_toJson (Field.fits_column hfield)
  exact .arr_map fun map hmap => List.mem_singleton.mp hmap ▸
    .obj (.member (.str _) (.member (.str _) (.member (.arr_map hcolumn) .no_members)))

/-- A read task nests fourteen levels deep at most. -/
theorem fits_readTask {entity : Entity} {pid : String} {style : ReadMapStyle} {task : ReadTask}
    (h : entity.readTask pid style = .ok task) : Json.Fits 14 task.toJson := by
  have hmaps : Json.Fits 12 (task.style.render task.readMap) := by
    cases hstyle : task.style with
    | structured => exact fits_readMap h
    | inline => exact .str _
  have hwindows : Json.Fits 12 (.arr (task.timeframes.map Window.toJson)) := by
    obtain ⟨identifier, columns, -, -, -, rfl⟩ := readTask_eq_ok_iff.mp h
    refine .arr_map fun window hwindow => ?_
    obtain ⟨timeframe, -, rfl⟩ := List.mem_map.mp hwindow
    exact timeframe.fits_window
  exact .obj (.member (.obj (.member (.str _) (.member (.str _) (.member hmaps (.member (.str _)
    (.member hwindows .no_members)))))) .no_members)

/-- The document of a read task is read back, however it was printed. -/
theorem read?_print_readTask {entity : Entity} {pid : String} {style : ReadMapStyle}
    {task : ReadTask} (h : entity.readTask pid style = .ok task) {print : Json → String}
    (hprint : print ∈ [Json.compact, Json.pretty]) :
    Json.read? (print task.toJson) = some task.toJson.canonical := by
  have hfits : Json.Fits Json.maxLevels task.toJson := (fits_readTask h).mono (by decide)
  rw [List.mem_cons, List.mem_singleton] at hprint
  rcases hprint with rfl | rfl
  · exact Json.read?_compact hfits
  · exact Json.read?_pretty hfits

end Entity

/-! ### The two styles -/

/-- The members that stand before the read maps of a read task. -/
def Document.ReadTask.leading (task : ReadTask) : List (String × Json) :=
  [("entity", .str task.entity), ("timezone", .str task.timezone)]

/-- The members that stand after the read maps of a read task. -/
def Document.ReadTask.trailing (task : ReadTask) : List (String × Json) :=
  [("computedStreams", .str noComputedStreams),
    ("timeFrames", .arr (task.timeframes.map Window.toJson))]

/-- The style of a read task is seen in its read map alone. -/
theorem Document.ReadTask.toJson_eq (task : ReadTask) :
    task.toJson = .obj [("readTask", .obj (task.leading
      ++ ("readMap", task.style.render task.readMap) :: task.trailing))] := rfl

/-- The read map of the document of a read task. -/
def readMap? (document : Json) : Option Json :=
  (document.get? "readTask").bind (·.get? "readMap")

/-- The read map of a document that was read back is that of the document, read back. -/
theorem readMap?_canonical (document : Json) :
    readMap? document.canonical = (readMap? document).map Json.canonical := by
  rw [readMap?, Json.get?_canonical, readMap?]
  cases document.get? "readTask" with
  | none => rfl
  | some body => exact Json.get?_canonical body "readMap"

/-- **Both styles carry the same read maps.**  For every entity and process, the inline and the
structured read task are refused alike, or both are made.  Their documents then differ in the
member `readMap` only, and the inline text there is read as the structured value.  This is still
so when the documents are printed, in either way, and read back. -/
theorem readTask_styles_agree (entity : Entity) (pid : String) :
    (∃ refusal, ∀ style, entity.readTask pid style = .error refusal) ∨
    ∃ inline structured before after text maps,
      entity.readTask pid .inline = .ok inline ∧ entity.readTask pid .structured = .ok structured ∧
      inline.toJson = .obj [("readTask", .obj (before ++ ("readMap", .str text) :: after))] ∧
      structured.toJson = .obj [("readTask", .obj (before ++ ("readMap", maps) :: after))] ∧
      (∀ member ∈ before ++ after, member.1 ≠ "readMap") ∧
      Json.read? text = some maps.canonical ∧
      ∀ print ∈ [Json.compact, Json.pretty],
        Json.read? (print inline.toJson) = some inline.toJson.canonical ∧
        Json.read? (print structured.toJson) = some structured.toJson.canonical ∧
        readMap? inline.toJson.canonical = some (.str text) ∧
        readMap? structured.toJson.canonical = some maps.canonical := by
  -- The inline task is the structured one with another style.
  have hinline := entity.readTask_eq_map pid .inline
  cases hstructured : entity.readTask pid .structured with
  | error refusal =>
      refine .inl ⟨refusal, fun style => ?_⟩
      rw [entity.readTask_eq_map pid style, hstructured]
      rfl
  | ok structured =>
      rw [hstructured] at hinline
      have hstyle : structured.style = .structured := by
        obtain ⟨_, _, -, -, -, rfl⟩ := Entity.readTask_eq_ok_iff.mp hstructured
        rfl
      have hdocument : structured.toJson = .obj [("readTask", .obj (structured.leading
          ++ ("readMap", ReadMap.listToJson structured.readMap) :: structured.trailing))] := by
        rw [ReadTask.toJson_eq, hstyle]
        rfl
      have hmaps : Json.Fits Json.maxLevels (ReadMap.listToJson structured.readMap) :=
        (Entity.fits_readMap hstructured).mono (by decide)
      refine .inr ⟨{ structured with style := .inline }, structured, structured.leading,
        structured.trailing, (ReadMap.listToJson structured.readMap).compact,
        ReadMap.listToJson structured.readMap, hinline, rfl, ReadTask.toJson_eq _, hdocument, ?_,
        Json.read?_compact hmaps, fun print hprint => ⟨Entity.read?_print_readTask hinline hprint,
          Entity.read?_print_readTask hstructured hprint, ?_, ?_⟩⟩
      · simp [ReadTask.leading, ReadTask.trailing]
      · rw [readMap?_canonical]
        rfl
      · rw [readMap?_canonical, hdocument]
        rfl

end StoreTasks
