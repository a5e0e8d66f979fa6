/-!
# Command — Arguments

The commands of the program, and how a list of arguments is read as one.

An option is written `--name value` or `--name=value`, some also `-n value`, `-nvalue` or
`-n=value`; a flag has no value, and the short names of flags may be put together before that of
an option.  The value after an option is an argument that does not itself look like an option.
The options `--config` and `--verbose` may stand before the command or after it, and the later
place counts.
-/

namespace StoreTasks

/-- What the program is asked to do.  Every command reads load files, and writes to a file
or to the standard output. -/
inductive Command where
  /-- Write the declarations of the load. -/
  | declarations (load : List String) (out : Option String)
  /-- Write the tasks to load the files of some entities, or of all. -/
  | uploadTasks (load : List String) (pid : String) (entities : List String) (out : Option String)
  /-- Write the tasks to read the entities of an extract. -/
  | readTasks (load : List String) (extract pid : String) (inline : Bool) (out : Option String)
  /-- Write the skeletons of extracts. -/
  | skeletons (load : List String) (out : Option String)
deriving DecidableEq, Repr

namespace Command

/-- The files of the load. -/
def load : Command → List String
  | declarations load _ | uploadTasks load _ _ _ | readTasks load _ _ _ _ | skeletons load _ => load

/-- The file to write to. -/
def out : Command → Option String
  | declarations _ out | uploadTasks _ _ _ out | readTasks _ _ _ _ out | skeletons _ out => out

/-- The names of the commands. -/
inductive Name where
  | declarations
  | uploadTasks
  | readTasks
  | skeletons
deriving DecidableEq, Repr

/-- A name as it is written. -/
def Name.text : Name → String
  | declarations => "load-config"
  | uploadTasks => "upload-tasks"
  | readTasks => "read-tasks"
  | skeletons => "extract-config"

/-- All names. -/
def Name.all : List Name :=
  [declarations, uploadTasks, readTasks, skeletons]

end Command

/-- A command with the options that every command has. -/
structure Invocation where
  config : Option String
  verbose : Bool
  command : Command
deriving DecidableEq, Repr

namespace Arguments

/-- Why there is no command to run. -/
inductive Stop where
  /-- The arguments ask how the program is used. -/
  | help
  /-- The arguments are not those of a command. -/
  | misuse
deriving DecidableEq, Repr

/-! ### Options -/

/-- The options of all commands. -/
inductive Parameter where
  | config
  | verbose
  | help
  | load
  | pid
  | entity
  | extract
  | compact
  | out
deriving DecidableEq, Repr

namespace Parameter

/-- The long name. -/
def long : Parameter → String
  | config => "config"
  | verbose => "verbose"
  | help => "help"
  | load => "load"
  | pid => "pid"
  | entity => "entity"
  | extract => "extract"
  | compact => "compact"
  | out => "out"

/-- The short name, if there is one. -/
def short? : Parameter → Option Char
  | verbose => some 'v'
  | help => some 'h'
  | out => some 'o'
  | _ => none

/-- The option stands alone, without a value. -/
def isFlag : Parameter → Bool
  | verbose | help | compact => true
  | _ => false

/-- The option takes every value up to the next option. -/
def takesMany : Parameter → Bool
  | load => true
  | _ => false

/-- The option may be given several times. -/
def mayRepeat : Parameter → Bool
  | load | entity => true
  | _ => false

/-- The values are paths, which are not empty. -/
def isPath : Parameter → Bool
  | config | load | extract | out => true
  | _ => false

/-- The options that may stand before the command. -/
def general : List Parameter :=
  [config, verbose, help]

/-- The options that may stand after a command. -/
def ofCommand : Command.Name → List Parameter
  | .declarations | .skeletons => general ++ [load, out]
  | .uploadTasks => general ++ [load, pid, entity, out]
  | .readTasks => general ++ [load, extract, pid, compact, out]

end Parameter

/-! ### Reading options -/

/-- An option with its values. -/
structure Occurrence where
  option : Parameter
  values : List String
deriving DecidableEq, Repr

/-- The argument looks like an option. -/
def looksLikeOption (argument : String) : Bool :=
  argument ≠ "-" && argument.toList.head? = some '-'

/-- What is read from one argument: options that are complete, and perhaps one that waits for
its values. -/
structure Step where
  complete : List Occurrence
  waiting : Option Parameter
deriving DecidableEq, Repr

/-- The option that a flag, or an option without a value of its own, begins. -/
def Step.start (option : Parameter) : Except Stop Step :=
  if option = .help then .error .help
  else if option.isFlag then .ok ⟨[⟨option, []⟩], none⟩
  else .ok ⟨[], some option⟩

/-- The text up to an equals sign, and the text after it if there is one. -/
def splitAtEquals (text : List Char) : List Char × Option (List Char) :=
  match text.dropWhile (· ≠ '=') with
  | [] => (text, none)
  | _ :: value => (text.takeWhile (· ≠ '='), some value)

/-- A long name, perhaps with a value. -/
def readLong (allowed : List Parameter) (text : List Char) : Except Stop Step :=
  let (name, value) := splitAtEquals text
  match allowed.find? (·.long = String.ofList name), value with
  | none, _ => .error .misuse
  | some option, none => Step.start option
  | some option, some value =>
    if option.isFlag then .error .misuse else .ok ⟨[⟨option, [String.ofList value]⟩], none⟩

/-- Short names of flags, and perhaps of an option with its value. -/
def readShort (allowed : List Parameter) : List Char → Except Stop Step
  | [] => .ok ⟨[], none⟩
  | c :: rest =>
    match allowed.find? (·.short? = some c) with
    | none => .error .misuse
    | some option => do
      let step ← Step.start option
      if option.isFlag then
        let others ← readShort allowed rest
        return ⟨step.complete ++ others.complete, others.waiting⟩
      match rest with
      | [] => return step
      | '=' :: value | value => return ⟨[⟨option, [String.ofList value]⟩], none⟩

/-- An argument that looks like an option. -/
def readOption (allowed : List Parameter) (argument : String) : Except Stop Step :=
  match argument.toList with
  | '-' :: '-' :: text => readLong allowed text
  | '-' :: text => readShort allowed text
  | _ => .error .misuse

/-- The waiting option with its values, of which it has at least one. -/
def close : Option Occurrence → Except Stop (List Occurrence)
  | none => .ok []
  | some occurrence => if occurrence.values.isEmpty then .error .misuse else .ok [occurrence]

/-- The options at the start of the arguments, and the arguments from the first one on that
belongs to no option.  Nothing may follow the argument `--`. -/
def scan (allowed : List Parameter) (waiting : Option Occurrence) :
    List String → Except Stop (List Occurrence × List String)
  | [] => do return (← close waiting, [])
  | argument :: rest => do
    if argument = "--" then
      let closed ← close waiting
      if rest.isEmpty then return (closed, []) else throw .misuse
    if looksLikeOption argument then
      let closed ← close waiting
      let step ← readOption allowed argument
      let (others, rest) ← scan allowed (step.waiting.map (⟨·, []⟩)) rest
      return (closed ++ step.complete ++ others, rest)
    match waiting with
    | none => return ([], argument :: rest)
    | some occurrence =>
      let occurrence := { occurrence with values := occurrence.values ++ [argument] }
      if occurrence.option.takesMany then scan allowed (some occurrence) rest
      else
        let (others, rest) ← scan allowed none rest
        return (occurrence :: others, rest)

/-! ### Options as a whole -/

/-- The occurrences of an option. -/
def of (occurrences : List Occurrence) (option : Parameter) : List Occurrence :=
  occurrences.filter (·.option = option)

/-- No option is repeated that may not be, and no path is empty. -/
def consistent (occurrences : List Occurrence) : Bool :=
  occurrences.all fun occurrence =>
    (occurrence.option.mayRepeat || (of occurrences occurrence.option).length = 1)
      && !(occurrence.option.isPath && occurrence.values.contains "")

/-- All values of an option. -/
def values (occurrences : List Occurrence) (option : Parameter) : List String :=
  (of occurrences option).flatMap (·.values)

/-- The value of an option that may be left out. -/
def value? (occurrences : List Occurrence) (option : Parameter) : Option String :=
  (values occurrences option).head?

/-- The value of an option that is required. -/
def required (occurrences : List Occurrence) (option : Parameter) : Except Stop String :=
  match value? occurrences option with
  | some value => .ok value
  | none => .error .misuse

/-- The flag is given. -/
def given (occurrences : List Occurrence) (option : Parameter) : Bool :=
  !(of occurrences option).isEmpty

/-- The command that a name and its options make. -/
def commandOf (name : Command.Name) (occurrences : List Occurrence) : Except Stop Command := do
  let load := values occurrences .load
  if load.isEmpty then throw .misuse
  let out := value? occurrences .out
  match name with
  | .declarations => return .declarations load out
  | .skeletons => return .skeletons load out
  | .uploadTasks =>
    let pid ← required occurrences .pid
    return .uploadTasks load pid (values occurrences .entity) out
  | .readTasks =>
    let extract ← required occurrences .extract
    let pid ← required occurrences .pid
    return .readTasks load extract pid (given occurrences .compact) out

/-- The command of a list of arguments. -/
def read (arguments : List String) : Except Stop Invocation := do
  let (before, rest) ← scan Parameter.general none arguments
  match rest with
  | [] => throw .misuse
  | word :: rest =>
    if word = "help" then throw .help
    match Command.Name.all.find? (·.text = word) with
    | none => throw .misuse
    | some name =>
      let (after, rest) ← scan (Parameter.ofCommand name) none rest
      if !rest.isEmpty || !consistent before || !consistent after then throw .misuse
      let command ← commandOf name after
      return {
        config := value? after .config <|> value? before .config
        verbose := given after .verbose || given before .verbose
        command }

end Arguments

end StoreTasks
