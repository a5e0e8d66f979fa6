import StoreTasks.Refusal

/-!
# Failure

Why a command failed: what it was about to do, and what went wrong there.
-/

namespace StoreTasks

/-- What was being done. -/
inductive Activity where
  | readSpecFile (path : String)
  | parseSpecFile (path : String)
  | readConfigFile (path : String)
  | parseConfigFile (path : String)
  | checkLoad (paths : List String)
  | parseExtractSpec (path : String)
  | checkExtractSpec (path : String)
  | renderUploadTasks (pid : String)
  | openSource (path : String)
  | readSource (path : String)
  | writeOutput (path : String)
  | writeLoad (path : String)
deriving DecidableEq, Repr

/-- The words for an activity. -/
def Activity.text : Activity → String
  | readSpecFile path => "read spec file " ++ path
  | parseSpecFile path => "parse spec file " ++ path
  | readConfigFile path => "read config file " ++ path
  | parseConfigFile path => "parse config file " ++ path
  | checkLoad paths => "invalid load specification in " ++ String.intercalate ", " paths
  | parseExtractSpec path => "parse extract spec " ++ path
  | checkExtractSpec path => "invalid extract spec " ++ path
  | renderUploadTasks pid => "render upload tasks for " ++ pid
  | openSource path => "open source file " ++ path
  | readSource path => "read source file " ++ path
  | writeOutput path => "write output " ++ path
  | writeLoad path => "write load config " ++ path

/-- What went wrong. -/
inductive Cause where
  /-- A file cannot be read or written, or is not UTF-8. -/
  | file
  /-- A text is not JSON. -/
  | notJson
  /-- A value has the wrong shape. -/
  | wrongShape
  /-- A specification is refused. -/
  | refused (refusal : Refusal)
deriving DecidableEq

/-- A cause, and the activity in which it arose where that is reported. -/
structure Failure where
  activity : Option Activity
  cause : Cause
deriving DecidableEq

namespace Failure

/-- A failure of an activity. -/
def during (activity : Activity) (cause : Cause) : Failure :=
  ⟨some activity, cause⟩

/-- A refusal that is reported by itself. -/
def ofRefusal (refusal : Refusal) : Failure :=
  ⟨none, .refused refusal⟩

/-- The words for a cause that has words of its own. -/
def causeText : Cause → Option String
  | .refused refusal => some refusal.message
  | _ => none

/-- The activity, or the cause where no activity is reported. -/
def headline (failure : Failure) : String :=
  match failure.activity with
  | some activity => activity.text
  | none => (causeText failure.cause).getD ""

/-- The activity and the words for the cause. -/
def message (failure : Failure) : String :=
  String.intercalate ": "
    ((failure.activity.map Activity.text).toList ++ (causeText failure.cause).toList)

end Failure

end StoreTasks
