import StoreTasks.Command.Arguments
import StoreTasks.DataFile
import StoreTasks.Extract.Basic
import StoreTasks.Settings
import StoreTasks.SpecFile

/-!
# Command — Run

What a command does: it reads its files, makes one document, and only then writes it.

`evaluate` makes the document from what the files hold and changes nothing.  `run` applies it to a
tree of files and writes the document, into a file or onto the standard output; a command that
fails has written nothing.
-/

namespace StoreTasks

open Calendar Document

/-- Something that a command reports while it runs. -/
inductive Notice where
  /-- A source file has a header at most. -/
  | noDataRows (file : String)
  /-- A source file cannot be read. -/
  | cannotRead (file : String)
  /-- The result for an entity will have this local name. -/
  | localName (entity name : String)
deriving DecidableEq, Repr

/-- The document of a command or the failure to make it, with what is reported on the way. -/
structure Evaluation where
  notices : List Notice
  result : Except Failure String

namespace Evaluation

/-- A result without notices. -/
def silent (result : Except Failure String) : Evaluation :=
  ⟨[], result⟩

end Evaluation

namespace Command

/-- A document as a command writes it. -/
def documentText (documents : List Json) : String :=
  (Json.arr documents).pretty

/-- What is to be reported about a source file. -/
def sourceNotice? (lookup : String → Entry) (file : String) : Option Notice :=
  match DataFile.hasRows lookup file with
  | .ok true => none
  | .ok false => some (.noDataRows file)
  | .error _ => some (.cannotRead file)

/-- Upload tasks, after a look at the source files of the selected declarations. -/
def evaluateUploadTasks (lookup : String → Entry) (load : Load) (pid : String)
    (entities : List String) : Evaluation :=
  match load.select entities with
  | .error refusal => .silent (.error (.ofRefusal refusal))
  | .ok selected =>
    { notices := selected.filterMap fun entity => sourceNotice? lookup entity.file
      result := match load.uploadTasks pid entities with
        | .error refusal => .error (.during (.renderUploadTasks pid) (.refused refusal))
        | .ok tasks => .ok (documentText (tasks.map UploadTask.toJson)) }

/-- The extract that a file asks for; the timezone is that of the settings where the file names
none. -/
def readExtract (lookup : String → Entry) (settings : Settings) (load : Load) (path : String)
    (today : Date) : Except Failure Extract := do
  let spec ← SpecFile.read lookup path
  let request ← (Extract.Request.ofJson spec).mapError fun _ =>
    .during (.parseExtractSpec path) .wrongShape
  let request := { request with timezone := request.timezone <|> some settings.timezone }
  (Extract.resolve request load today).mapError fun refusal =>
    .during (.checkExtractSpec path) (.refused refusal)

/-- Read tasks, and the local name of each result. -/
def evaluateReadTasks (lookup : String → Entry) (settings : Settings) (load : Load)
    (extractFile pid : String) (inline : Bool) (now : Moment) : Evaluation :=
  match readExtract lookup settings load extractFile now.date with
  | .error failure => .silent (.error failure)
  | .ok extract =>
    match extract.readTasks pid (if inline then .inline else settings.readMapStyle) with
    | .error refusal => .silent (.error (.ofRefusal refusal))
    | .ok tasks =>
      { notices := extract.entities.map fun entity =>
          .localName entity.name (settings.marks.localName entity.file now)
        result := .ok (documentText (tasks.map ReadTask.toJson)) }

/-- The document of a command under some settings. -/
def evaluate (lookup : String → Entry) (settings : Settings) (now : Moment) (command : Command) :
    Evaluation :=
  match Load.ofFiles lookup command.load with
  | .error failure => .silent (.error failure)
  | .ok load =>
    match command with
    | .declarations _ _ => .silent (.ok load.toJson.pretty)
    | .skeletons _ _ =>
      .silent (.ok (documentText ((load.skeletons settings.timezone).map
        Skeleton.toJson)))
    | .uploadTasks _ pid entities _ => evaluateUploadTasks lookup load pid entities
    | .readTasks _ extractFile pid inline _ =>
      evaluateReadTasks lookup settings load extractFile pid inline now

/-- The source files that a command looks at. -/
def sources (lookup : String → Entry) (command : Command) : List String :=
  match command, Load.ofFiles lookup command.load with
  | .uploadTasks _ _ entities _, .ok load =>
    match load.select entities with
    | .ok selected => selected.map Entity.file
    | .error _ => []
  | _, _ => []

/-- The specifications that a command reads. -/
def specFiles (command : Command) : List String :=
  match command with
  | .readTasks load extractFile _ _ _ => load ++ [extractFile]
  | command => command.load

end Command

namespace Invocation

/-- The settings of a run. -/
def settings (lookup : String → Entry) (invocation : Invocation) : Except Failure Settings :=
  match invocation.config with
  | none => .ok Settings.default
  | some path => Settings.ofFile lookup path

/-- The document of a command under the settings it names. -/
def evaluate (lookup : String → Entry) (now : Moment) (invocation : Invocation) : Evaluation :=
  match invocation.settings lookup with
  | .error failure => .silent (.error failure)
  | .ok settings => invocation.command.evaluate lookup settings now

end Invocation

/-- The tree after a document is written to a file, with a line end after it.  A relative path
starts from the directory `start`. -/
def deliver (files : FileTree) (path text : String) (start : Location := []) :
    Except Failure FileTree :=
  match files.write? start path (text ++ "\n") with
  | some files => .ok files
  | none => .error (.during (.writeOutput path) .file)

/-- How a run ends. -/
structure Outcome where
  notices : List Notice
  /-- Why the run failed, if it did. -/
  failure : Option Failure
  /-- The text on the standard output. -/
  output : String
  /-- The files after the run. -/
  files : FileTree

namespace Outcome

/-- The exit status. -/
def status (outcome : Outcome) : Nat :=
  if outcome.failure.isSome then 1 else 0

end Outcome

/-- Runs a command at a time in the directory `start`. -/
def Invocation.run (files : FileTree) (now : Moment) (invocation : Invocation)
    (start : Location := []) : Outcome :=
  let evaluation := invocation.evaluate (files.lookupFrom start) now
  let fail (failure : Failure) : Outcome :=
    { notices := evaluation.notices, failure := some failure, output := "", files }
  match evaluation.result with
  | .error failure => fail failure
  | .ok text =>
    match invocation.command.out with
    | none =>
      { notices := evaluation.notices, failure := none, output := text ++ "\n", files }
    | some path =>
      match deliver files path text start with
      | .error failure => fail failure
      | .ok files => { notices := evaluation.notices, failure := none, output := "", files }

end StoreTasks
