import StoreTasks.Proofs.Command.Options

/-!
# Proofs — Command — arguments

Which arguments ask for which command (`Arguments.read_eq_ok_iff`), and which commands can be asked
for at all (`Arguments.exists_read_iff`).

A command is read from its options as a whole: an option is given once at most, unless it may be
repeated (`Consistent`), and has as many values as it takes (`Occurrence.Full`).  What is written
with `write` is read back, so an invocation can be asked for when it has a load and no empty path.
-/

namespace StoreTasks.Arguments

variable {allowed : List Parameter} {step : Step}

/-! ### Options as a whole -/

/-- An occurrence has as many values as its option takes. -/
structure Occurrence.Full (occurrence : Occurrence) : Prop where
  flag : occurrence.option.isFlag = true → occurrence.values = []
  one : occurrence.option.isFlag = false → occurrence.option.takesMany = false →
    ∃ value, occurrence.values = [value]

/-- What is complete has its values, and what waits is no flag. -/
structure Step.Sound (step : Step) : Prop where
  full : ∀ occurrence ∈ step.complete, occurrence.Full
  waiting : ∀ option ∈ step.waiting, option.isFlag = false

theorem full_flag {option : Parameter} (isFlag : option.isFlag = true) :
    Occurrence.Full ⟨option, []⟩ :=
  ⟨fun _ => rfl, by simp [isFlag]⟩

theorem full_value {option : Parameter} (valued : option.isFlag = false) (value : String) :
    Occurrence.Full ⟨option, [value]⟩ :=
  ⟨by simp [valued], fun _ _ => ⟨value, rfl⟩⟩

theorem Begins.sound {option : Parameter} (begins : Begins option step) : step.Sound := by
  cases begins with
  | flag isFlag => exact ⟨by simpa using full_flag isFlag, by simp⟩
  | waiting valued => exact ⟨by simp, by simpa using valued⟩

theorem SpellsLong.sound {text : List Char} (spells : SpellsLong allowed text step) :
    step.Sound := by
  cases spells with
  | name _ begins => exact begins.sound
  | value _ valued value => exact ⟨by simpa using full_value valued _, by simp⟩

theorem SpellsShort.sound {text : List Char} (spells : SpellsShort allowed text step) :
    step.Sound := by
  induction spells with
  | nil => exact ⟨by simp, by simp⟩
  | flag _ _ isFlag _ _ ih =>
      exact ⟨List.forall_mem_cons.mpr ⟨full_flag isFlag, ih.full⟩, ih.waiting⟩
  | waiting _ _ valued => exact ⟨by simp, by simpa using valued⟩
  | equals _ _ valued => exact ⟨by simpa using full_value valued _, by simp⟩
  | value _ _ valued => exact ⟨by simpa using full_value valued _, by simp⟩

/-- What an argument spells is complete as far as it goes. -/
theorem Spells.sound {argument : String} (spells : Spells allowed argument step) : step.Sound := by
  cases spells with
  | long spells => exact spells.sound
  | short _ spells => exact spells.sound

/-- Options are read with as many values as they take. -/
theorem Options.full {arguments rest : List String} {occurrences : List Occurrence}
    (options : Options allowed arguments occurrences rest) :
    ∀ occurrence ∈ occurrences, occurrence.Full := by
  induction options with
  | done | hyphens | word => exact List.forall_mem_nil _
  | complete spells _ ih => exact List.forall_mem_append.mpr ⟨spells.sound.full, ih⟩
  | @taking _ option values _ _ _ _ spells takes _ ih =>
      have valued : option.isFlag = false := spells.sound.waiting option rfl
      have hfull : Occurrence.Full ⟨option, values⟩ :=
        ⟨by simp [valued], fun _ one => List.length_eq_one_iff.mp (takes.one one)⟩
      exact List.forall_mem_append.mpr
        ⟨spells.sound.full, List.forall_mem_cons.mpr ⟨hfull, ih⟩⟩

/-- An option is given once at most, unless it may be repeated, and no path is empty. -/
structure Consistent (occurrences : List Occurrence) : Prop where
  once : ∀ option : Parameter, option.mayRepeat = false →
    (occurrences.filter (·.option = option)).length ≤ 1
  paths : ∀ occurrence ∈ occurrences, occurrence.option.isPath = true → "" ∉ occurrence.values

theorem mem_of_iff {occurrences : List Occurrence} {option : Parameter} {occurrence : Occurrence} :
    occurrence ∈ of occurrences option ↔
      occurrence ∈ occurrences ∧ occurrence.option = option := by
  rw [of, List.mem_filter, decide_eq_true_eq]

/-- The check of the options as a whole is exact. -/
theorem consistent_iff {occurrences : List Occurrence} :
    consistent occurrences = true ↔ Consistent occurrences := by
  rw [consistent, List.all_eq_true]
  refine ⟨fun h => ⟨fun option hrepeat => ?_, fun occurrence hmem hpath hempty => ?_⟩,
    fun ⟨once, paths⟩ occurrence hmem => ?_⟩
  · rcases Nat.eq_zero_or_pos (of occurrences option).length with hzero | hpos
    · exact hzero.le.trans (Nat.zero_le 1)
    · obtain ⟨first, hfirst⟩ := List.exists_mem_of_length_pos hpos
      obtain ⟨hmem, rfl⟩ := mem_of_iff.mp hfirst
      have hone := h first hmem
      simp only [hrepeat, Bool.false_or, Bool.and_eq_true] at hone
      exact (of_decide_eq_true hone.1).le
  · have hall := h occurrence hmem
    simp [hpath, hempty] at hall
  · have hfound : occurrence ∈ of occurrences occurrence.option :=
      List.mem_filter.mpr ⟨hmem, decide_eq_true rfl⟩
    have hpath : (occurrence.option.isPath && occurrence.values.contains "") = false := by
      by_contra hbad
      rw [Bool.not_eq_false, Bool.and_eq_true, List.contains_iff_mem] at hbad
      exact paths occurrence hmem hbad.1 hbad.2
    rw [hpath, Bool.not_false, Bool.and_true, Bool.or_eq_true, decide_eq_true_eq]
    cases hrepeat : occurrence.option.mayRepeat with
    | true => exact .inl rfl
    | false => exact .inr (Nat.le_antisymm (once _ hrepeat) (List.length_pos_of_mem hfound))

/-- The value of an option, or nothing where the option is not given. -/
def Gives (occurrences : List Occurrence) (option : Parameter) : Option String → Prop
  | some value => ⟨option, [value]⟩ ∈ occurrences
  | none => ∀ occurrence ∈ occurrences, occurrence.option ≠ option

section Whole

variable {occurrences : List Occurrence} {option : Parameter} {found : Option String}

/-- The value of an option that is given once at most is found, or is known to be missing. -/
theorem value?_eq_iff (full : ∀ occurrence ∈ occurrences, occurrence.Full)
    (consistent : Consistent occurrences) (valued : option.isFlag = false)
    (one : option.takesMany = false) (single : option.mayRepeat = false) :
    value? occurrences option = found ↔ Gives occurrences option found := by
  -- There is at most one occurrence, and it has one value.
  have honce : (of occurrences option).length ≤ 1 := consistent.once option single
  rcases hof : of occurrences option with _ | ⟨first, others⟩
  · have hnone : ∀ occurrence ∈ occurrences, occurrence.option ≠ option := by
      intro occurrence h heq
      simpa [hof] using mem_of_iff.mpr ⟨h, heq⟩
    rw [value?, values, hof]
    cases found with
    | none => exact iff_of_true rfl hnone
    | some value => exact iff_of_false nofun fun h => hnone _ h rfl
  · obtain rfl : others = [] := by simpa [hof] using honce
    have hmem : first ∈ of occurrences option := by simp [hof]
    obtain ⟨hfirst, rfl⟩ := mem_of_iff.mp hmem
    obtain ⟨value, hvalue⟩ := (full first hfirst).one valued one
    have heq : first = ⟨first.option, [value]⟩ := by rw [← hvalue]
    rw [value?, values, hof]
    simp only [List.flatMap_cons, List.flatMap_nil, hvalue, List.append_nil, List.head?_cons]
    cases found with
    | none => exact iff_of_false nofun fun h => h first hfirst rfl
    | some other =>
        rw [Option.some.injEq, Gives]
        refine ⟨fun h => h ▸ heq ▸ hfirst, fun h => ?_⟩
        have hother := mem_of_iff.mpr ⟨h, rfl⟩
        rw [hof, List.mem_singleton] at hother
        rw [← hother] at hvalue
        simpa using hvalue.symm

theorem given_iff (full : ∀ occurrence ∈ occurrences, occurrence.Full)
    (isFlag : option.isFlag = true) :
    given occurrences option = true ↔ ⟨option, []⟩ ∈ occurrences := by
  rw [given, Bool.not_eq_true', ← Bool.not_eq_true, List.isEmpty_iff]
  refine ⟨fun hne => ?_, fun h hnil => ?_⟩
  · obtain ⟨⟨found, values⟩, hfound⟩ := List.exists_mem_of_ne_nil _ hne
    obtain ⟨hmem, rfl⟩ := mem_of_iff.mp hfound
    obtain rfl : values = [] := (full _ hmem).flag isFlag
    exact hmem
  · simpa [hnil] using mem_of_iff.mpr ⟨h, rfl⟩

end Whole

/-! ### Commands -/

/-- The options after the name of a command ask for the command.  It needs a load, and what else its
name says. -/
inductive AsksFor (occurrences : List Occurrence) : Command.Name → Command → Prop where
  | declarations {load : List String} {out : Option String} (hne : load ≠ [])
      (hload : load = values occurrences .load) (hout : Gives occurrences .out out) :
      AsksFor occurrences .declarations (.declarations load out)
  | uploadTasks {load entities : List String} {pid : String} {out : Option String} (hne : load ≠ [])
      (hload : load = values occurrences .load) (hpid : Gives occurrences .pid (some pid))
      (hentities : entities = values occurrences .entity) (hout : Gives occurrences .out out) :
      AsksFor occurrences .uploadTasks (.uploadTasks load pid entities out)
  | readTasks {load : List String} {extract pid : String} {inline : Bool} {out : Option String}
      (hne : load ≠ []) (hload : load = values occurrences .load)
      (hextract : Gives occurrences .extract (some extract))
      (hpid : Gives occurrences .pid (some pid))
      (hinline : inline = true ↔ ⟨.compact, []⟩ ∈ occurrences)
      (hout : Gives occurrences .out out) :
      AsksFor occurrences .readTasks (.readTasks load extract pid inline out)
  | skeletons {load : List String} {out : Option String} (hne : load ≠ [])
      (hload : load = values occurrences .load) (hout : Gives occurrences .out out) :
      AsksFor occurrences .skeletons (.skeletons load out)

/-- The options before and after the name of a command ask for the invocation.  For the two options
that may stand in both places, the later place counts. -/
structure Asks (before after : List Occurrence) (name : Command.Name) (invocation : Invocation) :
    Prop where
  config : (∃ path, invocation.config = some path ∧ Gives after .config (some path)) ∨
    Gives after .config none ∧ Gives before .config invocation.config
  verbose : invocation.verbose = true ↔ ⟨.verbose, []⟩ ∈ after ∨ ⟨.verbose, []⟩ ∈ before
  command : AsksFor after name invocation.command

section Whole

variable {occurrences : List Occurrence} {name : Command.Name} {command : Command}

theorem required_eq_ok_iff {option : Parameter} {value : String} :
    required occurrences option = .ok value ↔ value? occurrences option = some value := by
  rw [required]
  cases value? occurrences option with
  | none => simp
  | some found => simp

/-- A command is made of options exactly when they ask for it. -/
theorem commandOf_eq_ok_iff (full : ∀ occurrence ∈ occurrences, occurrence.Full)
    (consistent : Consistent occurrences) :
    commandOf name occurrences = .ok command ↔ AsksFor occurrences name command := by
  have hout : ∀ out, Gives occurrences .out out ↔ value? occurrences .out = out := fun _ =>
    (value?_eq_iff full consistent rfl rfl rfl).symm
  have hrequired : ∀ option : Parameter, option.isFlag = false → option.takesMany = false →
      option.mayRepeat = false → ∀ value,
      (Gives occurrences option (some value) ↔ required occurrences option = .ok value) :=
    fun option valued one single _ =>
      (value?_eq_iff full consistent valued one single).symm.trans required_eq_ok_iff.symm
  by_cases hne : values occurrences .load = []
  · refine iff_of_false (fun h => ?_) fun asks => ?_
    · rw [commandOf, hne] at h
      cases h
    · cases asks <;> simp_all
  rw [commandOf, if_neg (by simpa using hne)]
  refine ⟨fun h => ?_, fun asks => ?_⟩
  · cases name with
    | declarations =>
        cases h
        exact .declarations hne rfl ((hout _).mpr rfl)
    | skeletons =>
        cases h
        exact .skeletons hne rfl ((hout _).mpr rfl)
    | uploadTasks =>
        obtain ⟨pid, hpid, h⟩ := bind_eq_ok_iff.mp h
        cases h
        exact .uploadTasks hne rfl ((hrequired .pid rfl rfl rfl _).mpr hpid) rfl ((hout _).mpr rfl)
    | readTasks =>
        obtain ⟨extract, hextract, h⟩ := bind_eq_ok_iff.mp h
        obtain ⟨pid, hpid, h⟩ := bind_eq_ok_iff.mp h
        cases h
        exact .readTasks hne rfl ((hrequired .extract rfl rfl rfl _).mpr hextract)
          ((hrequired .pid rfl rfl rfl _).mpr hpid) (given_iff full rfl) ((hout _).mpr rfl)
  · cases asks with
    | declarations _ hload h => rw [hload, ← (hout _).mp h]; rfl
    | skeletons _ hload h => rw [hload, ← (hout _).mp h]; rfl
    | uploadTasks _ hload hpid hentities h =>
        rw [hload, hentities, ← (hout _).mp h]
        exact bind_eq_ok_iff.mpr ⟨_, (hrequired .pid rfl rfl rfl _).mp hpid, rfl⟩
    | readTasks _ hload hextract hpid hinline h =>
        rw [hload, ← (hout _).mp h,
          Bool.eq_iff_iff.mpr (hinline.trans (given_iff full rfl).symm)]
        exact bind_eq_ok_iff.mpr ⟨_, (hrequired .extract rfl rfl rfl _).mp hextract,
          bind_eq_ok_iff.mpr ⟨_, (hrequired .pid rfl rfl rfl _).mp hpid, rfl⟩⟩

theorem find?_text_eq_some_iff {word : String} :
    Command.Name.all.find? (·.text = word) = some name ↔ name.text = word := by
  refine ⟨fun h => by simpa using List.find?_some h, ?_⟩
  rintro rfl
  cases name <;> rfl

/-- What consistent options ask for is what is taken from them. -/
theorem asks_iff {before after : List Occurrence} {invocation : Invocation}
    (fullBefore : ∀ occurrence ∈ before, occurrence.Full)
    (fullAfter : ∀ occurrence ∈ after, occurrence.Full) (consistentBefore : Consistent before)
    (consistentAfter : Consistent after) :
    Asks before after name invocation ↔
      commandOf name after = .ok invocation.command ∧
        invocation.config = (value? after .config <|> value? before .config) ∧
        invocation.verbose = (given after .verbose || given before .verbose) := by
  have hconfig : invocation.config = (value? after .config <|> value? before .config) ↔
      (∃ path, invocation.config = some path ∧ Gives after .config (some path)) ∨
        Gives after .config none ∧ Gives before .config invocation.config := by
    have hafter : ∀ found, Gives after .config found ↔ value? after .config = found := fun _ =>
      (value?_eq_iff fullAfter consistentAfter rfl rfl rfl).symm
    have hbefore : ∀ found, Gives before .config found ↔ value? before .config = found := fun _ =>
      (value?_eq_iff fullBefore consistentBefore rfl rfl rfl).symm
    simp only [hafter, hbefore]
    cases value? after .config with
    | none => simp [eq_comm]
    | some path => simp
  have hverbose : invocation.verbose = (given after .verbose || given before .verbose) ↔
      (invocation.verbose = true ↔ ⟨.verbose, []⟩ ∈ after ∨ ⟨.verbose, []⟩ ∈ before) := by
    rw [Bool.eq_iff_iff, Bool.or_eq_true, given_iff fullAfter rfl, given_iff fullBefore rfl]
  rw [commandOf_eq_ok_iff fullAfter consistentAfter, hconfig, hverbose]
  exact ⟨fun ⟨config, verbose, command⟩ => ⟨command, config, verbose⟩,
    fun ⟨command, config, verbose⟩ => ⟨config, verbose, command⟩⟩

/-- **Which arguments ask for which command.**  Arguments are read as an invocation exactly when
they spell options that may stand before a command, the name of a command, and options of that
command, when each of these groups is consistent, and when they ask for the invocation. -/
theorem read_eq_ok_iff {arguments : List String} {invocation : Invocation} :
    read arguments = .ok invocation ↔
      ∃ name before rest after, Options Parameter.general arguments before (name.text :: rest) ∧
        Options (Parameter.ofCommand name) rest after [] ∧
        Consistent before ∧ Consistent after ∧ Asks before after name invocation := by
  rw [read, bind_eq_ok_iff]
  refine ⟨?_, ?_⟩
  · rintro ⟨⟨before, left⟩, hbefore, h⟩
    rcases left with _ | ⟨word, rest⟩
    · cases h
    by_cases hhelp : word = "help"
    · simp only [hhelp, if_true] at h
      cases h
    simp only [if_neg hhelp] at h
    cases hname : Command.Name.all.find? (·.text = word) with
    | none =>
        simp only [hname] at h
        cases h
    | some name =>
        simp only [hname] at h
        obtain ⟨⟨after, left⟩, hafter, h⟩ := bind_eq_ok_iff.mp h
        by_cases hmisuse : (!left.isEmpty || !consistent before || !consistent after) = true
        · rw [if_pos hmisuse] at h
          cases h
        · rw [if_neg hmisuse] at h
          obtain ⟨command, hcommand, h⟩ := bind_eq_ok_iff.mp h
          cases h
          simp only [Bool.or_eq_true, Bool.not_eq_true', not_or, Bool.not_eq_false,
            List.isEmpty_iff, consistent_iff] at hmisuse
          obtain ⟨⟨rfl, consistentBefore⟩, consistentAfter⟩ := hmisuse
          have hoptions := scan_eq_ok_iff.mp hbefore
          rw [← find?_text_eq_some_iff.mp hname] at hoptions
          exact ⟨name, before, rest, after, hoptions, scan_eq_ok_iff.mp hafter, consistentBefore,
            consistentAfter, (asks_iff hoptions.full (scan_eq_ok_iff.mp hafter).full
              consistentBefore consistentAfter).mpr ⟨hcommand, rfl, rfl⟩⟩
  · rintro ⟨name, before, rest, after, hbefore, hafter, consistentBefore, consistentAfter, asks⟩
    obtain ⟨hcommand, hconfig, hverbose⟩ :=
      (asks_iff hbefore.full hafter.full consistentBefore consistentAfter).mp asks
    have hhelp : name.text ≠ "help" := by cases name <;> simp [Command.Name.text]
    refine ⟨_, scan_eq_ok_iff.mpr hbefore, ?_⟩
    simp only [if_neg hhelp, find?_text_eq_some_iff.mpr rfl]
    refine bind_eq_ok_iff.mpr ⟨_, scan_eq_ok_iff.mpr hafter, ?_⟩
    simp only [List.isEmpty_nil, consistent_iff.mpr consistentBefore,
      consistent_iff.mpr consistentAfter]
    refine bind_eq_ok_iff.mpr ⟨_, hcommand, ?_⟩
    rw [← hconfig, ← hverbose]
    rfl

end Whole

/-! ### Invocations -/

/-- The option once for each value. -/
def each (option : Parameter) (values : List String) : List Occurrence :=
  values.map fun value => ⟨option, [value]⟩

/-- The flag, or nothing. -/
def once (option : Parameter) (given : Bool) : List Occurrence :=
  if given then [⟨option, []⟩] else []

/-- The options of a command, with a value each. -/
def optionsOf : Command → List Occurrence
  | .declarations load out | .skeletons load out => each .load load ++ each .out out.toList
  | .uploadTasks load pid entities out =>
    each .load load ++ each .pid [pid] ++ each .entity entities ++ each .out out.toList
  | .readTasks load extract pid inline out =>
    each .load load ++ each .extract [extract] ++ each .pid [pid] ++ once .compact inline
      ++ each .out out.toList

/-- The name of a command. -/
def nameOf : Command → Command.Name
  | .declarations .. => .declarations
  | .uploadTasks .. => .uploadTasks
  | .readTasks .. => .readTasks
  | .skeletons .. => .skeletons

/-- An option as it is written, with its value after an equals sign. -/
def Occurrence.text : Occurrence → String
  | ⟨option, []⟩ => String.ofList ('-' :: '-' :: option.long.toList)
  | ⟨option, value :: _⟩ =>
    String.ofList ('-' :: '-' :: (option.long.toList ++ '=' :: value.toList))

/-- All options of an invocation. -/
def occurrencesOf (invocation : Invocation) : List Occurrence :=
  each .config invocation.config.toList ++ once .verbose invocation.verbose
    ++ optionsOf invocation.command

/-- The invocation as it is written, all options after the name of the command. -/
def write (invocation : Invocation) : List String :=
  (nameOf invocation.command).text :: (occurrencesOf invocation).map Occurrence.text

/-- The paths that an invocation names. -/
def pathsOf (invocation : Invocation) : List String :=
  invocation.config.toList ++ invocation.command.load ++ invocation.command.out.toList ++
    match invocation.command with
    | .readTasks _ extract _ _ _ => [extract]
    | _ => []

/-- An invocation can be asked for: it has a load, and no path is empty. -/
structure Askable (invocation : Invocation) : Prop where
  load_ne : invocation.command.load ≠ []
  path_ne : ∀ path ∈ pathsOf invocation, path ≠ ""

section Write

variable {option : Parameter} {occurrence : Occurrence} {occurrences : List Occurrence}
  {invocation : Invocation}

@[simp] theorem mem_each {values : List String} :
    occurrence ∈ each option values ↔ ∃ value ∈ values, occurrence = ⟨option, [value]⟩ := by
  simp [each, eq_comm]

@[simp] theorem mem_once {given : Bool} :
    occurrence ∈ once option given ↔ given = true ∧ occurrence = ⟨option, []⟩ := by
  cases given <;> simp [once]

@[simp] theorem filter_each (values : List String) (other : Parameter) :
    (each option values).filter (·.option = other)
      = if option = other then each option values else [] := by
  by_cases h : option = other <;> simp [each, List.filter_map, h, Function.comp_def]

@[simp] theorem filter_once (given : Bool) (other : Parameter) :
    (once option given).filter (·.option = other)
      = if option = other then once option given else [] := by
  by_cases h : option = other <;> cases given <;> simp [once, h]

/-- An option that can be written in one argument. -/
inductive Written (allowed : List Parameter) : Occurrence → Prop where
  | flag {option : Parameter} (mem : option ∈ allowed) (isFlag : option.isFlag = true)
      (hhelp : option ≠ .help) : Written allowed ⟨option, []⟩
  | value {option : Parameter} (mem : option ∈ allowed) (valued : option.isFlag = false)
      (value : String) : Written allowed ⟨option, [value]⟩

theorem written_each (mem : option ∈ allowed) (valued : option.isFlag = false)
    (values : List String) : ∀ occurrence ∈ each option values, Written allowed occurrence := by
  intro occurrence h
  obtain ⟨value, -, rfl⟩ := mem_each.mp h
  exact .value mem valued value

theorem written_once (mem : option ∈ allowed) (isFlag : option.isFlag = true)
    (hhelp : option ≠ .help) (given : Bool) :
    ∀ occurrence ∈ once option given, Written allowed occurrence := by
  intro occurrence h
  obtain ⟨-, rfl⟩ := mem_once.mp h
  exact .flag mem isFlag hhelp

/-- Options that are written one after another are read one after another. -/
theorem options_map_text (written : ∀ occurrence ∈ occurrences, Written allowed occurrence) :
    Options allowed (occurrences.map Occurrence.text) occurrences [] := by
  induction occurrences with
  | nil => exact .done
  | cons occurrence occurrences ih =>
      have hrest := ih fun o h => written o (List.mem_cons_of_mem _ h)
      cases written occurrence List.mem_cons_self with
      | flag mem isFlag hhelp => exact .complete (.long (.name mem (.flag isFlag hhelp))) hrest
      | value mem valued value =>
          have hlong := SpellsLong.value mem valued value.toList
          rw [String.ofList_toList] at hlong
          exact .complete (.long hlong) hrest

/-- The options of an invocation are spelled as they are written. -/
theorem options_occurrencesOf (invocation : Invocation) :
    Options (Parameter.ofCommand (nameOf invocation.command))
      ((occurrencesOf invocation).map Occurrence.text) (occurrencesOf invocation) [] := by
  obtain ⟨config, verbose, command⟩ := invocation
  have hgeneral : ∀ option ∈ Parameter.general, option ∈ Parameter.ofCommand (nameOf command) := by
    intro option h
    cases command <;> exact List.mem_append_left _ h
  have hload : Parameter.load ∈ Parameter.ofCommand (nameOf command) := by
    cases command <;> simp [nameOf, Parameter.ofCommand]
  have hout : Parameter.out ∈ Parameter.ofCommand (nameOf command) := by
    cases command <;> simp [nameOf, Parameter.ofCommand]
  refine options_map_text (List.forall_mem_append.mpr ⟨List.forall_mem_append.mpr
    ⟨written_each (hgeneral _ (by simp [Parameter.general])) rfl _,
      written_once (hgeneral _ (by simp [Parameter.general])) rfl (by simp) _⟩, ?_⟩)
  cases command with
  | declarations | skeletons =>
      exact List.forall_mem_append.mpr ⟨written_each hload rfl _, written_each hout rfl _⟩
  | uploadTasks =>
      have hpid : Parameter.pid ∈ Parameter.ofCommand .uploadTasks := by
        simp [Parameter.ofCommand]
      have hentity : Parameter.entity ∈ Parameter.ofCommand .uploadTasks := by
        simp [Parameter.ofCommand]
      simp only [optionsOf, List.forall_mem_append]
      exact ⟨⟨⟨written_each hload rfl _, written_each hpid rfl _⟩, written_each hentity rfl _⟩,
        written_each hout rfl _⟩
  | readTasks =>
      have hextract : Parameter.extract ∈ Parameter.ofCommand .readTasks := by
        simp [Parameter.ofCommand]
      have hpid : Parameter.pid ∈ Parameter.ofCommand .readTasks := by
        simp [Parameter.ofCommand]
      have hcompact : Parameter.compact ∈ Parameter.ofCommand .readTasks := by
        simp [Parameter.ofCommand]
      simp only [optionsOf, List.forall_mem_append]
      exact ⟨⟨⟨⟨written_each hload rfl _, written_each hextract rfl _⟩, written_each hpid rfl _⟩,
        written_once hcompact rfl (by simp) _⟩, written_each hout rfl _⟩

@[simp] theorem length_each (values : List String) : (each option values).length = values.length :=
  List.length_map _

theorem length_once (given : Bool) : (once option given).length ≤ 1 := by
  cases given <;> simp [once]

/-- The value of a path among the options is a path of the invocation. -/
theorem mem_pathsOf (hmem : occurrence ∈ occurrencesOf invocation)
    (isPath : occurrence.option.isPath = true) {path : String} (h : path ∈ occurrence.values) :
    path ∈ pathsOf invocation := by
  obtain ⟨config, verbose, command⟩ := invocation
  cases command <;>
    simp only [occurrencesOf, optionsOf, List.mem_append, mem_each, mem_once] at hmem <;>
    grind [pathsOf, Parameter.isPath, Command.load, Command.out]

/-- The options of an invocation pass the check, if no path is empty. -/
theorem consistent_occurrencesOf (askable : Askable invocation) :
    Consistent (occurrencesOf invocation) := by
  refine ⟨fun option single => ?_, fun occurrence hmem isPath hempty =>
    askable.path_ne "" (mem_pathsOf hmem isPath hempty) rfl⟩
  obtain ⟨config, verbose, command⟩ := invocation
  cases command <;> cases option <;>
    simp [occurrencesOf, optionsOf, length_once, Option.length_toList_le, Parameter.mayRepeat]
      at single ⊢

@[simp] theorem flatMap_each (values : List String) :
    (each option values).flatMap (·.values) = values := by
  simp [each, List.flatMap_map]

/-- The options of an invocation ask for it. -/
theorem asks_occurrencesOf (askable : Askable invocation) :
    Asks [] (occurrencesOf invocation) (nameOf invocation.command) invocation := by
  have gives : ∀ option : Parameter, option.isFlag = false → option.takesMany = false →
      option.mayRepeat = false → ∀ found,
      (values (occurrencesOf invocation) option).head? = found →
      Gives (occurrencesOf invocation) option found := fun option valued one single _ =>
    (value?_eq_iff (options_occurrencesOf invocation).full (consistent_occurrencesOf askable)
      valued one single).mp
  obtain ⟨config, verbose, command⟩ := invocation
  have hne := askable.load_ne
  have hload : command.load = values (occurrencesOf ⟨config, verbose, command⟩) .load := by
    cases command <;>
      simp [values, of, occurrencesOf, optionsOf, Command.load]
  have hout : Gives (occurrencesOf ⟨config, verbose, command⟩) .out command.out := by
    refine gives .out rfl rfl rfl _ ?_
    cases command <;>
      simp [values, of, occurrencesOf, optionsOf, Command.out]
  have hconfig : Gives (occurrencesOf ⟨config, verbose, command⟩) .config config := by
    refine gives .config rfl rfl rfl _ ?_
    cases command <;>
      simp [values, of, occurrencesOf, optionsOf]
  -- All options are written after the name, so none stands before it.
  refine ⟨?_, ?_, ?_⟩
  · cases config with
    | none => exact .inr ⟨hconfig, List.forall_mem_nil _⟩
    | some path => exact .inl ⟨path, rfl, hconfig⟩
  · cases command <;> simp [occurrencesOf, optionsOf]
  · cases command with
    | declarations load out => exact .declarations hne hload hout
    | skeletons load out => exact .skeletons hne hload hout
    | uploadTasks load pid entities out =>
        refine .uploadTasks hne hload ?_ ?_ hout
        · simp [Gives, occurrencesOf, optionsOf]
        · simp [values, of, occurrencesOf, optionsOf]
    | readTasks load extract pid inline out =>
        refine .readTasks hne hload ?_ ?_ ?_ hout <;>
          simp [Gives, occurrencesOf, optionsOf]

/-- What is written is read back. -/
theorem read_write (askable : Askable invocation) : read (write invocation) = .ok invocation := by
  have hword : looksLikeOption (nameOf invocation.command).text = false := by
    cases nameOf invocation.command <;> decide
  exact read_eq_ok_iff.mpr ⟨nameOf invocation.command, [], _, occurrencesOf invocation,
    .word hword _, options_occurrencesOf invocation, ⟨by simp, by simp⟩,
    consistent_occurrencesOf askable, asks_occurrencesOf askable⟩

/-- No value of a path is empty, where the options pass the check. -/
theorem Consistent.ne_of_mem_values (consistent : Consistent occurrences)
    (isPath : option.isPath = true) {path : String} (h : path ∈ values occurrences option) :
    path ≠ "" := by
  rintro rfl
  obtain ⟨occurrence, hof, hempty⟩ := List.mem_flatMap.mp h
  obtain ⟨hmem, rfl⟩ := mem_of_iff.mp hof
  exact consistent.paths _ hmem isPath hempty

/-- No path that is given is empty, where the options pass the check. -/
theorem Consistent.ne_of_gives (consistent : Consistent occurrences)
    (isPath : option.isPath = true) {path : String}
    (h : Gives occurrences option (some path)) : path ≠ "" := by
  rintro rfl
  exact consistent.paths _ h isPath List.mem_cons_self

/-- **Which invocations can be asked for.**  There are arguments for an invocation exactly when it
has a load and names no empty path.  The process and the entities may have any names. -/
theorem exists_read_iff :
    (∃ arguments, read arguments = .ok invocation) ↔ Askable invocation := by
  refine ⟨?_, fun askable => ⟨_, read_write askable⟩⟩
  rintro ⟨arguments, h⟩
  obtain ⟨name, before, rest, after, -, -, consistentBefore, consistentAfter, asks⟩ :=
    read_eq_ok_iff.mp h
  obtain ⟨config, verbose, command⟩ := invocation
  obtain ⟨hconfig, -, hcommand⟩ := asks
  have config_ne : ∀ path, config = some path → path ≠ "" := by
    rintro path rfl
    rcases hconfig with ⟨_, ⟨⟩, hafter⟩ | ⟨-, hbefore⟩
    · exact consistentAfter.ne_of_gives rfl hafter
    · exact consistentBefore.ne_of_gives rfl hbefore
  have out_ne : ∀ {out}, Gives after .out out → ∀ path, out = some path → path ≠ "" := by
    rintro _ hout path rfl
    exact consistentAfter.ne_of_gives rfl hout
  have load_ne : ∀ path ∈ values after .load, path ≠ "" := fun path =>
    consistentAfter.ne_of_mem_values rfl
  have path_ne : ∀ {load out}, load = values after .load → Gives after .out out →
      ∀ path ∈ config.toList ++ load ++ out.toList, path ≠ "" := by
    rintro _ out rfl hout
    simp only [List.forall_mem_append, Option.mem_toList]
    exact ⟨⟨config_ne, load_ne⟩, out_ne hout⟩
  cases hcommand with
  | declarations hne hload hout | uploadTasks hne hload _ _ hout | skeletons hne hload hout =>
      refine ⟨hne, ?_⟩
      rw [pathsOf, List.append_nil]
      exact path_ne hload hout
  | readTasks hne hload hextract _ _ hout =>
      refine ⟨hne, List.forall_mem_append.mpr ⟨path_ne hload hout, ?_⟩⟩
      exact List.forall_mem_singleton.mpr (consistentAfter.ne_of_gives rfl hextract)

/-- A verbose run for two load files, in three spellings: with long names, with short names put
together, and with an option before the command. -/
example :
    let invocation : Invocation :=
      ⟨none, true, .uploadTasks ["a.json", "b.json"] "p" [] (some "t.json")⟩
    read ["upload-tasks", "--load", "a.json", "b.json", "--pid=p", "--verbose", "--out", "t.json"]
        = .ok invocation ∧
      read ["upload-tasks", "--load=a.json", "--load=b.json", "--pid", "p", "-vo=t.json"]
        = .ok invocation ∧
      read ["-v", "upload-tasks", "-ot.json", "--pid=p", "--load", "a.json", "b.json"]
        = .ok invocation :=
  ⟨rfl, rfl, rfl⟩

end Write

end StoreTasks.Arguments
