import StoreTasks.Extract.Basic
import StoreTasks.Proofs.Destination
import StoreTasks.Proofs.Load.UploadTasks
import StoreTasks.Proofs.ReadTask

/-!
# Proofs — Destination — remote

When two tasks share a remote file (`Destination.files_shared_exact`).  A remote path is a
directory, a slash and a name.  Processes and entities may have slashes in their names, but the
name of a source has none, so a remote path comes apart in one way: at its last slash.

* `ofExtract_eq_iff`, `ofUpload_eq_iff`: for one process, an extract path tells the entity and the
  name of the source; an upload path tells the process and the name of the source.
* `Load.HasUpload`, `Extract.HasRead`: the tasks of a load and of an extract, each with the entity
  it is made for.
-/

namespace StoreTasks

open Document

/-! ### Paths -/

namespace Destination

theorem slash_not_mem_fileName (source : String) : '/' ∉ (fileName source).toList := by
  rw [toList_fileName]
  exact slash_not_mem_baseName _

theorem fileName_fileName (source : String) : fileName (fileName source) = fileName source := by
  rw [fileName_eq_iff, toList_fileName, baseName_baseName]

/-- A directory and the name in it can be told from the path. -/
theorem append_fileName_inj {directory directory' source source' : String} :
    directory ++ "/" ++ fileName source = directory' ++ "/" ++ fileName source' ↔
      directory = directory' ∧ fileName source = fileName source' := by
  have htoList : ∀ directory source : String,
      (directory ++ "/" ++ fileName source).toList
        = directory.toList ++ '/' :: (fileName source).toList := by
    intro directory source
    simp
  rw [← String.toList_inj, htoList, htoList, append_cons_inj_of_not_mem
    (slash_not_mem_fileName source) (slash_not_mem_fileName source'), String.toList_inj,
    String.toList_inj]

/-- Extracts of a process share a file when entity and name are the same. -/
theorem ofExtract_eq_iff {pid entity entity' source source' : String} :
    ofExtract pid entity source = ofExtract pid entity' source' ↔
      entity = entity' ∧ fileName source = fileName source' := by
  have hdirectory : extractDirectory pid entity = extractDirectory pid entity' ↔
      entity = entity' := by
    simp only [extractDirectory, ← String.toList_inj, String.toList_append,
      List.append_cancel_left_eq]
  rw [ofExtract, ofExtract, append_fileName_inj, hdirectory]

/-- With other processes the entity cannot be told. -/
example : ofExtract "a" "b_c" "deals.csv" = ofExtract "a_b" "c" "deals.csv" := rfl

/-- Uploads share a file when process and name are the same. -/
theorem ofUpload_eq_iff {pid pid' source source' : String} :
    ofUpload pid source = ofUpload pid' source' ↔
      pid = pid' ∧ fileName source = fileName source' := by
  have hdirectory : uploadDirectory pid = uploadDirectory pid' ↔ pid = pid' := by
    simp only [uploadDirectory, ← String.toList_inj, String.toList_append,
      List.append_cancel_left_eq]
  rw [ofUpload, ofUpload, append_fileName_inj, hdirectory]

end Destination

/-! ### Tasks -/

namespace Load

/-- The task is made for the entity among upload tasks of the load for the process. -/
inductive HasUpload (load : Load) (pid : String) (entity : Entity) (task : UploadTask) : Prop where
  | made {names : List String} {selected : List Entity} {tasks : List UploadTask} (i : Nat)
      (selects : load.select names = .ok selected) (makes : load.uploadTasks pid names = .ok tasks)
      (entity_at : selected[i]? = some entity) (task_at : tasks[i]? = some task) :
      HasUpload load pid entity task

theorem forall₂_uploads {load : Load} {pid : String} {names : List String}
    {selected : List Entity} {tasks : List UploadTask}
    (hselected : load.select names = .ok selected) (h : load.uploadTasks pid names = .ok tasks) :
    List.Forall₂ (Entity.Uploads pid) selected tasks := by
  rw [uploadTasks, hselected] at h
  exact (mapM_eq_ok_iff.mp h).imp fun _ _ => Entity.uploadTask_eq_ok_iff.mp

theorem HasUpload.uploads {load : Load} {pid : String} {entity : Entity} {task : UploadTask}
    (hasUpload : load.HasUpload pid entity task) : entity.Uploads pid task := by
  obtain ⟨i, hselected, htasks, hentity, htask⟩ := hasUpload
  obtain ⟨made, hmade, uploads⟩ :=
    exists_getElem?_of_forall₂ (forall₂_uploads hselected htasks) hentity
  obtain rfl : made = task := Option.some.inj (hmade.symm.trans htask)
  exact uploads

/-- Every upload task is made for an entity of the load. -/
theorem exists_hasUpload {load : Load} {pid : String} {names : List String}
    {tasks : List UploadTask} (h : load.uploadTasks pid names = .ok tasks) {task : UploadTask}
    (htask : task ∈ tasks) : ∃ entity ∈ load.entities, load.HasUpload pid entity task := by
  obtain ⟨selected, hselected, -⟩ := bind_eq_ok_iff.mp h
  obtain ⟨i, htask⟩ := List.mem_iff_getElem?.mp htask
  obtain ⟨entity, hentity, -⟩ :=
    exists_getElem?_of_forall₂ (forall₂_uploads hselected h).flip htask
  refine ⟨entity, ?_, .made i hselected h hentity htask⟩
  have hmem : entity ∈ load.selected names := by
    rw [select_of_known (uploadTasks_eq_ok_iff.mp h).1] at hselected
    exact Except.ok.inj hselected ▸ List.mem_of_getElem? hentity
  exact List.mem_of_mem_filter hmem

/-- Two upload tasks for one process share their file when the sources have one name. -/
theorem HasUpload.file_eq_iff {load : Load} {pid : String} {entity entity' : Entity}
    {task task' : UploadTask} (hasUpload : load.HasUpload pid entity task)
    (hasUpload' : load.HasUpload pid entity' task') :
    task.file = task'.file ↔
      Destination.fileName entity.file = Destination.fileName entity'.file := by
  rw [hasUpload.uploads.file_eq, hasUpload'.uploads.file_eq, Destination.ofUpload_eq_iff]
  exact and_iff_right rfl

end Load

namespace Extract

/-- The task is made for the entity among read tasks of the extract for the process. -/
inductive HasRead (extract : Extract) (pid : String) (entity : Entity) (task : ReadTask) :
    Prop where
  | made {style : ReadMapStyle} {tasks : List ReadTask} (i : Nat)
      (makes : extract.readTasks pid style = .ok tasks)
      (entity_at : extract.entities[i]? = some entity) (task_at : tasks[i]? = some task) :
      HasRead extract pid entity task

/-- A read task has one read map, with the file of its entity. -/
theorem HasRead.exists_map {extract : Extract} {pid : String} {entity : Entity} {task : ReadTask}
    (hasRead : extract.HasRead pid entity task) :
    task.entity = entity.name ∧ ∃ map, task.readMap = [map] ∧
      map.file = Destination.ofExtract pid entity.name entity.file := by
  obtain ⟨i, htasks, hentity, htask⟩ := hasRead
  obtain ⟨made, hmade, h⟩ := exists_getElem?_of_forall₂ (mapM_eq_ok_iff.mp htasks) hentity
  obtain rfl : made = task := Option.some.inj (hmade.symm.trans htask)
  obtain ⟨identifier, columns, -, -, -, rfl⟩ := Entity.readTask_eq_ok_iff.mp h
  exact ⟨rfl, _, rfl, rfl⟩

/-- Every read task is made for an entity of the extract. -/
theorem exists_hasRead {extract : Extract} {pid : String} {style : ReadMapStyle}
    {tasks : List ReadTask} (h : extract.readTasks pid style = .ok tasks) {task : ReadTask}
    (htask : task ∈ tasks) : ∃ entity ∈ extract.entities, extract.HasRead pid entity task := by
  obtain ⟨i, htask⟩ := List.mem_iff_getElem?.mp htask
  obtain ⟨entity, hentity, -⟩ := exists_getElem?_of_forall₂ (mapM_eq_ok_iff.mp h).flip htask
  exact ⟨entity, List.mem_of_getElem? hentity, .made i h hentity htask⟩

/-- Two read tasks for one process share their file when the entities have one name and the sources
have one name. -/
theorem HasRead.file_eq_iff {extract : Extract} {pid : String} {entity entity' : Entity}
    {task task' : ReadTask} (hasRead : extract.HasRead pid entity task)
    (hasRead' : extract.HasRead pid entity' task') :
    ∃ map map', task.readMap = [map] ∧ task'.readMap = [map'] ∧
      (map.file = map'.file ↔ task.entity = task'.entity ∧
        Destination.fileName entity.file = Destination.fileName entity'.file) := by
  obtain ⟨hname, map, hmap, hfile⟩ := hasRead.exists_map
  obtain ⟨hname', map', hmap', hfile'⟩ := hasRead'.exists_map
  refine ⟨map, map', hmap, hmap', ?_⟩
  rw [hfile, hfile', hname, hname', Destination.ofExtract_eq_iff]

end Extract

namespace Destination

/-- **When two tasks share a remote file.**

* The name of a source is the name that its path has, or empty when it has none; it holds no slash
  and is its own name.
* For one process, extracts share a path exactly when their entities are the same and their
  sources have the same name.
* Uploads share a path exactly when their processes are the same and their sources have the same
  name.
* So two upload tasks of a load for one process share their file exactly when the sources of their
  entities have the same name, and two read tasks of an extract when moreover their entities have
  the same name.  Every task is made for an entity. -/
theorem files_shared_exact :
    (∀ source : String, (∀ name, HasName source.toList name ↔
        (fileName source).toList = name ∧ fileName source ≠ "") ∧
      '/' ∉ (fileName source).toList ∧ fileName (fileName source) = fileName source) ∧
    (∀ pid entity entity' source source' : String,
      ofExtract pid entity source = ofExtract pid entity' source' ↔
        entity = entity' ∧ fileName source = fileName source') ∧
    (∀ pid pid' source source' : String,
      ofUpload pid source = ofUpload pid' source' ↔
        pid = pid' ∧ fileName source = fileName source') ∧
    (∀ (load : Load) (pid : String),
      (∀ names tasks, load.uploadTasks pid names = .ok tasks →
        ∀ task ∈ tasks, ∃ entity ∈ load.entities, load.HasUpload pid entity task) ∧
      ∀ entity entity' task task', load.HasUpload pid entity task →
        load.HasUpload pid entity' task' →
          (task.file = task'.file ↔ fileName entity.file = fileName entity'.file)) ∧
    ∀ (extract : Extract) (pid : String),
      (∀ style tasks, extract.readTasks pid style = .ok tasks →
        ∀ task ∈ tasks, ∃ entity ∈ extract.entities, extract.HasRead pid entity task) ∧
      ∀ entity entity' task task', extract.HasRead pid entity task →
        extract.HasRead pid entity' task' →
          ∃ map map', task.readMap = [map] ∧ task'.readMap = [map'] ∧
            (map.file = map'.file ↔ task.entity = task'.entity ∧
              fileName entity.file = fileName entity'.file) := by
  refine ⟨fun source => ⟨fun name => ?_, slash_not_mem_fileName source, fileName_fileName source⟩,
    fun _ _ _ _ _ => ofExtract_eq_iff, fun _ _ _ _ => ofUpload_eq_iff,
    fun load pid => ⟨fun _ _ h _ => Load.exists_hasUpload h, fun _ _ _ _ => ?_⟩,
    fun extract pid => ⟨fun _ _ h _ => Extract.exists_hasRead h, fun _ _ _ _ => ?_⟩⟩
  · rw [hasName_iff, toList_fileName]
    refine and_congr_right fun hname => ?_
    rw [← hname, ← toList_fileName, Ne, Ne, String.toList_eq_nil_iff]
  · exact Load.HasUpload.file_eq_iff
  · exact Extract.HasRead.file_eq_iff

/-- Deals and accounts in files of one name, in two directories. -/
def sameNames : Load :=
  ⟨[⟨"Deal", "new/rows.csv", [.plain "Id" .recordId], [], "UTC"⟩,
    ⟨"Account", "old/./rows.csv/", [.plain "Id" .recordId], [], "UTC"⟩]⟩

/-- The deals and the accounts are uploaded from one file, and read into two. -/
theorem files_shared_exact_sameNames :
    HasName "old/./rows.csv/".toList "rows.csv".toList ∧
      (∃ deals accounts, sameNames.uploadTasks "process" [] = .ok [deals, accounts] ∧
        deals.file = accounts.file) ∧
      ∀ latest : Timeframe, ∃ deals accounts dealMap accountMap,
        (⟨sameNames.entities.map (·.withTimeframes [latest]), [latest], "UTC"⟩ :
          Extract).readTasks "process" .structured = .ok [deals, accounts] ∧
        deals.readMap = [dealMap] ∧ accounts.readMap = [accountMap] ∧
        dealMap.file ≠ accountMap.file := by
  obtain ⟨hnames, -, -, hloads, hextracts⟩ := files_shared_exact
  refine ⟨((hnames "old/./rows.csv/").1 _).mpr ⟨by decide, by decide⟩, ?_, fun latest => ?_⟩
  · obtain ⟨deals, accounts, hmade⟩ : ∃ deals accounts,
        sameNames.uploadTasks "process" [] = .ok [deals, accounts] := ⟨_, _, rfl⟩
    refine ⟨deals, accounts, hmade, ?_⟩
    exact ((hloads sameNames "process").2 _ _ _ _ (.made 0 rfl hmade rfl rfl)
      (.made 1 rfl hmade rfl rfl)).mpr (by decide)
  · obtain ⟨deals, accounts, hmade, hdeal, haccount⟩ : ∃ deals accounts,
        (⟨sameNames.entities.map (·.withTimeframes [latest]), [latest], "UTC"⟩ :
          Extract).readTasks "process" .structured = .ok [deals, accounts] ∧
        deals.entity = "Deal" ∧ accounts.entity = "Account" := ⟨_, _, rfl, rfl, rfl⟩
    obtain ⟨dealMap, accountMap, hdealMap, haccountMap, hfile⟩ := (hextracts _ "process").2 _ _ _ _
      (.made 0 hmade rfl rfl) (.made 1 hmade rfl rfl)
    refine ⟨deals, accounts, dealMap, accountMap, hmade, hdealMap, haccountMap, fun h => ?_⟩
    have hsame := (hfile.mp h).1
    rw [hdeal, haccount] at hsame
    exact absurd hsame (by decide)

end Destination

end StoreTasks
