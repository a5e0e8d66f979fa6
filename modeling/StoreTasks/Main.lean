import Std.Time.Zoned
import StoreTasks.Command.Run

/-!
# Main

The program on the command line.  The files that a command needs are read first; what is made of
them is decided by `Invocation.evaluate`, and one write comes last.  Notices and errors go to the
standard error.
-/

namespace StoreTasks.Program

open Calendar

/-- How the program is called. -/
def usage : String :=
  String.intercalate "\n" [
    "usage: store-tasks [--config FILE] [-v] COMMAND",
    "commands:",
    "  load-config --load FILE... [-o FILE]",
    "  upload-tasks --load FILE... --pid PID [--entity NAME]... [-o FILE]",
    "  read-tasks --load FILE... --extract FILE --pid PID [--compact] [-o FILE]",
    "  extract-config --load FILE... [-o FILE]"]

/-- What a path leads to, as far as it can be read. -/
def readEntry (path : String) : IO Entry := do
  try return .file (← IO.FS.readBinFile path).data.toList
  catch _ => return .missing

/-- The entries of some paths. -/
def readEntries (paths : List String) : IO (List (String × Entry)) :=
  paths.mapM fun path => return (path, ← readEntry path)

/-- The entry of a path among those that were read. -/
def entryOf (entries : List (String × Entry)) (path : String) : Entry :=
  (entries.lookup path).getD .missing

/-- The local time. -/
def currentMoment : IO (Option Moment) := do
  let now ← Std.Time.PlainDateTime.now
  let date := Date.ofYMD? now.date.year.toInt now.date.month.val.toNat now.date.day.val.toNat
  return date.map fun date =>
    { date
      hour := now.time.hour.val.toNat
      minute := now.time.minute.val.toNat
      second := now.time.second.val.toNat
      nanosecond := now.time.nanosecond.val.toNat }

/-- A notice as a line. -/
def noticeLine : Notice → String
  | .noDataRows file => "source file has no data rows: " ++ file
  | .cannotRead file => "cannot read source file: " ++ file
  | .localName entity name => "extract result destination of " ++ entity ++ ": " ++ name

/-- Writes a document to its place. -/
def emit (out : Option String) (text : String) : IO UInt32 := do
  match out with
  | none => IO.println text; return 0
  | some path =>
    try
      IO.FS.writeFile path (text ++ "\n")
      return 0
    catch _ =>
      IO.eprintln ("Error: " ++ (Failure.during (.writeOutput path) .file).message)
      return 1

/-- Runs a command. -/
def execute (invocation : Invocation) : IO UInt32 := do
  let specs ← readEntries (invocation.config.toList ++ invocation.command.specFiles)
  let sources ← readEntries (invocation.command.sources (entryOf specs))
  match ← currentMoment with
  | none =>
    IO.eprintln "Error: the clock shows no date of the calendar"
    return 1
  | some now =>
    let evaluation := invocation.evaluate (entryOf (specs ++ sources)) now
    evaluation.notices.forM fun notice => IO.eprintln (noticeLine notice)
    match evaluation.result with
    | .ok text => emit invocation.command.out text
    | .error failure =>
      IO.eprintln ("Error: " ++ failure.message)
      return 1

end StoreTasks.Program

/-- Reads the arguments and runs the command they make. -/
def main (arguments : List String) : IO UInt32 := do
  match StoreTasks.Arguments.read arguments with
  | .ok invocation => StoreTasks.Program.execute invocation
  | .error .help => IO.println StoreTasks.Program.usage; return 0
  | .error .misuse => IO.eprintln StoreTasks.Program.usage; return 2
