import Mathlib.Data.List.TakeWhile
import StoreTasks.Command.Arguments
import StoreTasks.Proofs.Sequencing

/-!
# Proofs — Command — options

The spellings of options form a grammar: of one argument (`Spells`), and of the arguments up to the
first word that belongs to no option (`Options`).  Reading is exact for it (`readOption_eq_ok_iff`,
`scan_eq_ok_iff`), so each of the spellings means the same as any other of the same option.
-/

namespace StoreTasks.Arguments

/-! ### Names of options -/

namespace Parameter

theorem long_injective : Function.Injective long := by
  intro a b h
  cases a <;> cases b <;> first | rfl | simp [long] at h

theorem short?_injective {a b : Parameter} {c : Char} (ha : a.short? = some c)
    (hb : b.short? = some c) : a = b := by
  have h : a.short? = b.short? := ha.trans hb.symm
  cases a <;> cases b <;> first | rfl | simp [short?] at h ha

/-- No long name has an equals sign, which ends a name. -/
theorem equals_not_mem_long (option : Parameter) : '=' ∉ option.long.toList := by
  cases option <;> simp [long]

/-- No short name is the hyphen that begins a long one. -/
theorem short?_ne_hyphen (option : Parameter) : option.short? ≠ some '-' := by
  cases option <;> simp [short?]

/-- A look-up finds an item that no other can be taken for. -/
theorem find?_eq_some_iff_of_unique {p : Parameter → Bool} {option : Parameter}
    (unique : ∀ other, p option = true → p other = true → other = option)
    {allowed : List Parameter} :
    allowed.find? p = some option ↔ option ∈ allowed ∧ p option = true := by
  refine ⟨fun h => ⟨List.mem_of_find?_eq_some h, List.find?_some h⟩, fun ⟨hmem, hp⟩ => ?_⟩
  obtain ⟨found, hfound⟩ := Option.isSome_iff_exists.mp (List.find?_isSome.mpr ⟨option, hmem, hp⟩)
  rw [hfound, unique found hp (List.find?_some hfound)]

/-- An option is found by its long name, where it is allowed. -/
theorem find?_long_eq_some_iff {allowed : List Parameter} {name : String} {option : Parameter} :
    allowed.find? (·.long = name) = some option ↔ option ∈ allowed ∧ option.long = name := by
  rw [find?_eq_some_iff_of_unique, decide_eq_true_iff]
  intro other hoption hother
  exact long_injective ((of_decide_eq_true hother).trans (of_decide_eq_true hoption).symm)

theorem find?_short?_eq_some_iff {allowed : List Parameter} {c : Char} {option : Parameter} :
    allowed.find? (·.short? = some c) = some option ↔
      option ∈ allowed ∧ option.short? = some c := by
  rw [find?_eq_some_iff_of_unique, decide_eq_true_iff]
  intro other hoption hother
  exact short?_injective (of_decide_eq_true hother) (of_decide_eq_true hoption)

end Parameter

/-! ### One argument -/

/-- An option without a value of its own is complete when it is a flag, and waits otherwise. -/
inductive Begins : Parameter → Step → Prop where
  | flag {option : Parameter} (isFlag : option.isFlag = true) (hhelp : option ≠ .help) :
      Begins option ⟨[⟨option, []⟩], none⟩
  | waiting {option : Parameter} (valued : option.isFlag = false) : Begins option ⟨[], some option⟩

variable {allowed : List Parameter} {step : Step}

theorem start_eq_ok_iff {option : Parameter} :
    Step.start option = .ok step ↔ Begins option step := by
  refine ⟨fun h => ?_, fun begins => ?_⟩
  · rw [Step.start] at h
    by_cases hhelp : option = .help
    · rw [if_pos hhelp] at h
      cases h
    · rw [if_neg hhelp] at h
      cases hflag : option.isFlag with
      | true =>
          rw [hflag, if_pos rfl] at h
          cases h
          exact .flag hflag hhelp
      | false =>
          rw [hflag, if_neg (by simp)] at h
          cases h
          exact .waiting hflag
  · cases begins with
    | flag isFlag hhelp => rw [Step.start, if_neg hhelp, isFlag, if_pos rfl]
    | waiting valued =>
        have hhelp : option ≠ .help := fun h => by simp [h, Parameter.isFlag] at valued
        rw [Step.start, if_neg hhelp, valued, if_neg (by simp)]

/-- The text after two hyphens: a long name, and after an equals sign the value of an option that
has one. -/
inductive SpellsLong (allowed : List Parameter) : List Char → Step → Prop where
  | name {option : Parameter} {step : Step} (mem : option ∈ allowed) (begins : Begins option step) :
      SpellsLong allowed option.long.toList step
  | value {option : Parameter} (mem : option ∈ allowed) (valued : option.isFlag = false)
      (value : List Char) :
      SpellsLong allowed (option.long.toList ++ '=' :: value)
        ⟨[⟨option, [String.ofList value]⟩], none⟩

/-- The text after one hyphen: short names of flags, and then perhaps that of an option, alone or
with its value, which may stand after an equals sign. -/
inductive SpellsShort (allowed : List Parameter) : List Char → Step → Prop where
  | nil : SpellsShort allowed [] ⟨[], none⟩
  | flag {option : Parameter} {c : Char} {rest : List Char} {step : Step} (mem : option ∈ allowed)
      (short : option.short? = some c) (isFlag : option.isFlag = true) (hhelp : option ≠ .help)
      (others : SpellsShort allowed rest step) :
      SpellsShort allowed (c :: rest) ⟨⟨option, []⟩ :: step.complete, step.waiting⟩
  | waiting {option : Parameter} {c : Char} (mem : option ∈ allowed)
      (short : option.short? = some c) (valued : option.isFlag = false) :
      SpellsShort allowed [c] ⟨[], some option⟩
  | equals {option : Parameter} {c : Char} (mem : option ∈ allowed)
      (short : option.short? = some c) (valued : option.isFlag = false) (value : List Char) :
      SpellsShort allowed (c :: '=' :: value) ⟨[⟨option, [String.ofList value]⟩], none⟩
  | value {option : Parameter} {c first : Char} (mem : option ∈ allowed)
      (short : option.short? = some c) (valued : option.isFlag = false) (hfirst : first ≠ '=')
      (value : List Char) :
      SpellsShort allowed (c :: first :: value)
        ⟨[⟨option, [String.ofList (first :: value)]⟩], none⟩

/-- What an argument spells, where it looks like an option. -/
inductive Spells (allowed : List Parameter) : String → Step → Prop where
  | long {text : List Char} {step : Step} (spells : SpellsLong allowed text step) :
      Spells allowed (String.ofList ('-' :: '-' :: text)) step
  | short {text : List Char} {step : Step} (hne : text ≠ [])
      (spells : SpellsShort allowed text step) :
      Spells allowed (String.ofList ('-' :: text)) step

/-- A name ends at the first equals sign. -/
theorem splitAtEquals_append {name : List Char} (h : '=' ∉ name) (value : List Char) :
    splitAtEquals (name ++ '=' :: value) = (name, some value) := by
  have hname : ∀ c ∈ name, decide (c ≠ '=') = true := fun c hc =>
    decide_eq_true fun heq => h (heq ▸ hc)
  rw [splitAtEquals, List.dropWhile_append_of_pos hname, List.dropWhile_cons_of_neg (by simp),
    List.takeWhile_append_of_pos hname, List.takeWhile_cons_of_neg (by simp), List.append_nil]

theorem splitAtEquals_of_not_mem {text : List Char} (h : '=' ∉ text) :
    splitAtEquals text = (text, none) := by
  have htext : text.dropWhile (· ≠ '=') = [] := by
    rw [List.dropWhile_eq_nil_iff]
    exact fun c hc => decide_eq_true fun heq => h (heq ▸ hc)
  rw [splitAtEquals, htext]

section Long

variable {option : Parameter} (mem : option ∈ allowed)
include mem

theorem find?_long_self :
    allowed.find? (·.long = String.ofList option.long.toList) = some option :=
  Parameter.find?_long_eq_some_iff.mpr ⟨mem, String.ofList_toList.symm⟩

/-- A long name without a value begins its option. -/
theorem readLong_name : readLong allowed option.long.toList = Step.start option := by
  rw [readLong, splitAtEquals_of_not_mem option.equals_not_mem_long]
  simp only [find?_long_self mem]

/-- What comes after an equals sign is the value. -/
theorem readLong_value (valued : option.isFlag = false) (value : List Char) :
    readLong allowed (option.long.toList ++ '=' :: value)
      = .ok ⟨[⟨option, [String.ofList value]⟩], none⟩ := by
  rw [readLong, splitAtEquals_append option.equals_not_mem_long]
  simp only [find?_long_self mem, valued, Bool.false_eq_true, if_false]

end Long

/-- What is read is the long name of an option, or that of one with a value and the value. -/
theorem exists_long_of_readLong {text : List Char} (h : readLong allowed text = .ok step) :
    ∃ option ∈ allowed, text = option.long.toList ∨
      option.isFlag = false ∧ ∃ value, text = option.long.toList ++ '=' :: value := by
  by_cases hequals : '=' ∈ text
  · obtain ⟨name, value, rfl, hname⟩ := List.eq_append_cons_of_mem hequals
    rw [readLong, splitAtEquals_append hname] at h
    cases hfind : allowed.find? (·.long = String.ofList name) with
    | none =>
        simp only [hfind] at h
        cases h
    | some option =>
        obtain ⟨hmem, hlong⟩ := Parameter.find?_long_eq_some_iff.mp hfind
        have hname : name = option.long.toList := by rw [hlong, String.toList_ofList]
        cases hflag : option.isFlag with
        | true =>
            simp only [hfind, hflag, if_true] at h
            cases h
        | false => exact ⟨option, hmem, .inr ⟨hflag, value, by rw [hname]⟩⟩
  · rw [readLong, splitAtEquals_of_not_mem hequals] at h
    cases hfind : allowed.find? (·.long = String.ofList text) with
    | none =>
        simp only [hfind] at h
        cases h
    | some option =>
        obtain ⟨hmem, hlong⟩ := Parameter.find?_long_eq_some_iff.mp hfind
        exact ⟨option, hmem, .inl (by rw [hlong, String.toList_ofList])⟩

/-- Long names are read as they are spelled. -/
theorem readLong_eq_ok_iff {text : List Char} :
    readLong allowed text = .ok step ↔ SpellsLong allowed text step := by
  refine ⟨fun h => ?_, fun spells => ?_⟩
  · obtain ⟨option, mem, rfl | ⟨valued, value, rfl⟩⟩ := exists_long_of_readLong h
    · rw [readLong_name mem] at h
      exact .name mem (start_eq_ok_iff.mp h)
    · cases (readLong_value mem valued value).symm.trans h
      exact .value mem valued value
  · cases spells with
    | name mem begins => exact (readLong_name mem).trans (start_eq_ok_iff.mpr begins)
    | value mem valued value => exact readLong_value mem valued value

section Short

variable {option : Parameter} {c : Char} (mem : option ∈ allowed)
  (short : option.short? = some c)
include mem short

/-- After a flag come other short names. -/
theorem readShort_flag (isFlag : option.isFlag = true) (hhelp : option ≠ .help)
    (rest : List Char) :
    readShort allowed (c :: rest) = (readShort allowed rest).map fun others =>
      ⟨⟨option, []⟩ :: others.complete, others.waiting⟩ := by
  rw [readShort, Parameter.find?_short?_eq_some_iff.mpr ⟨mem, short⟩]
  simp only [start_eq_ok_iff.mpr (.flag isFlag hhelp), isFlag, if_true]
  cases readShort allowed rest with
  | error | ok => rfl

/-- An option at the end of short names waits for its value. -/
theorem readShort_alone (valued : option.isFlag = false) :
    readShort allowed [c] = .ok ⟨[], some option⟩ := by
  rw [readShort, Parameter.find?_short?_eq_some_iff.mpr ⟨mem, short⟩]
  simp only [start_eq_ok_iff.mpr (.waiting valued), valued]
  rfl

theorem readShort_equals (valued : option.isFlag = false) (value : List Char) :
    readShort allowed (c :: '=' :: value) = .ok ⟨[⟨option, [String.ofList value]⟩], none⟩ := by
  rw [readShort, Parameter.find?_short?_eq_some_iff.mpr ⟨mem, short⟩]
  simp only [start_eq_ok_iff.mpr (.waiting valued), valued]
  rfl

/-- What follows is no equals sign, so it belongs to the value. -/
theorem readShort_value (valued : option.isFlag = false) {first : Char} (hfirst : first ≠ '=')
    (value : List Char) :
    readShort allowed (c :: first :: value)
      = .ok ⟨[⟨option, [String.ofList (first :: value)]⟩], none⟩ := by
  rw [readShort, Parameter.find?_short?_eq_some_iff.mpr ⟨mem, short⟩]
  refine bind_eq_ok_iff.mpr ⟨_, start_eq_ok_iff.mpr (.waiting valued), ?_⟩
  rw [if_neg (by simp [valued])]
  split
  · contradiction
  · next h => exact absurd (List.cons.inj h).1 hfirst
  · rfl

end Short

/-- Short names start with that of an option. -/
theorem exists_begins_of_readShort {c : Char} {rest : List Char}
    (h : readShort allowed (c :: rest) = .ok step) :
    ∃ option ∈ allowed, option.short? = some c ∧ ∃ begun, Begins option begun := by
  rw [readShort] at h
  cases hfind : allowed.find? (·.short? = some c) with
  | none =>
      simp only [hfind] at h
      cases h
  | some option =>
      obtain ⟨hmem, hshort⟩ := Parameter.find?_short?_eq_some_iff.mp hfind
      simp only [hfind] at h
      obtain ⟨begun, hbegun, -⟩ := bind_eq_ok_iff.mp h
      exact ⟨option, hmem, hshort, begun, start_eq_ok_iff.mp hbegun⟩

/-- Short names are read as they are spelled. -/
theorem readShort_eq_ok_iff {text : List Char} :
    readShort allowed text = .ok step ↔ SpellsShort allowed text step := by
  induction text generalizing step with
  | nil =>
      refine ⟨fun h => ?_, fun spells => ?_⟩
      · cases h
        exact .nil
      · cases spells
        rfl
  | cons c rest ih =>
      refine ⟨fun h => ?_, fun spells => ?_⟩
      · obtain ⟨option, mem, short, begun, begins⟩ := exists_begins_of_readShort h
        cases begins with
        | flag isFlag hhelp =>
            rw [readShort_flag mem short isFlag hhelp] at h
            obtain ⟨others, hothers, rfl⟩ := map_eq_ok_iff.mp h
            exact .flag mem short isFlag hhelp (ih.mp hothers)
        | waiting valued =>
            rcases rest with _ | ⟨first, value⟩
            · cases (readShort_alone mem short valued).symm.trans h
              exact .waiting mem short valued
            · by_cases hfirst : first = '='
              · subst hfirst
                cases (readShort_equals mem short valued value).symm.trans h
                exact .equals mem short valued value
              · cases (readShort_value mem short valued hfirst value).symm.trans h
                exact .value mem short valued hfirst value
      · cases spells with
        | flag mem short isFlag hhelp others =>
            rw [readShort_flag mem short isFlag hhelp, ih.mpr others]
            rfl
        | waiting mem short valued => exact readShort_alone mem short valued
        | equals mem short valued value => exact readShort_equals mem short valued value
        | value mem short valued hfirst value =>
            exact readShort_value mem short valued hfirst value

/-- What looks like an option is a hyphen and more. -/
theorem looksLikeOption_iff {argument : String} :
    looksLikeOption argument = true ↔
      ∃ text, text ≠ [] ∧ argument = String.ofList ('-' :: text) := by
  rw [looksLikeOption, Bool.and_eq_true, decide_eq_true_iff, decide_eq_true_iff]
  refine ⟨fun ⟨hne, hhead⟩ => ?_, ?_⟩
  · obtain ⟨text, htext⟩ : ∃ text, argument.toList = '-' :: text := List.head?_eq_some_iff.mp hhead
    have heq : argument = String.ofList ('-' :: text) := by rw [← htext, String.ofList_toList]
    refine ⟨text, fun hnil => hne ?_, heq⟩
    rw [heq, hnil]
  · rintro ⟨text, hne, rfl⟩
    refine ⟨fun heq => hne ?_, by rw [String.toList_ofList, List.head?_cons]⟩
    have hlist : ('-' :: text) = ['-'] := by
      rw [← String.toList_ofList (l := '-' :: text), heq]
      rfl
    exact (List.cons.inj hlist).2

/-- No option has a hyphen for its short name, so two hyphens always begin a long name. -/
theorem SpellsShort.head_ne {c : Char} {rest : List Char}
    (spells : SpellsShort allowed (c :: rest) step) : c ≠ '-' := by
  rintro rfl
  cases spells with
  | flag _ short | waiting _ short | equals _ short | value _ short =>
      exact Parameter.short?_ne_hyphen _ short

/-- An argument is read as what it spells. -/
theorem readOption_eq_ok_iff {argument : String} (h : looksLikeOption argument = true) :
    readOption allowed argument = .ok step ↔ Spells allowed argument step := by
  obtain ⟨text, hne, rfl⟩ := looksLikeOption_iff.mp h
  have hlong : ∀ text, readOption allowed (String.ofList ('-' :: '-' :: text))
      = readLong allowed text := fun text => by
    rw [readOption, String.toList_ofList]
    rfl
  have hshort : ∀ c rest, c ≠ '-' → readOption allowed (String.ofList ('-' :: c :: rest))
      = readShort allowed (c :: rest) := fun c rest hc => by
    rw [readOption, String.toList_ofList]
    split <;> simp_all
  obtain ⟨c, rest, rfl⟩ := List.exists_cons_of_ne_nil hne
  refine ⟨fun hread => ?_, fun spells => ?_⟩
  · by_cases hc : c = '-'
    · subst hc
      rw [hlong] at hread
      exact .long (readLong_eq_ok_iff.mp hread)
    · rw [hshort c rest hc] at hread
      exact .short hne (readShort_eq_ok_iff.mp hread)
  · generalize hargument : String.ofList ('-' :: c :: rest) = argument at spells
    cases spells with
    | long spells => rw [hlong, readLong_eq_ok_iff.mpr spells]
    | @short text _ hne spells =>
        obtain ⟨first, others, rfl⟩ := List.exists_cons_of_ne_nil hne
        rw [hshort first others spells.head_ne, readShort_eq_ok_iff.mpr spells]

theorem Spells.looksLikeOption {argument : String} (spells : Spells allowed argument step) :
    looksLikeOption argument = true := by
  cases spells with
  | long => exact looksLikeOption_iff.mpr ⟨_, List.cons_ne_nil _ _, rfl⟩
  | short hne => exact looksLikeOption_iff.mpr ⟨_, hne, rfl⟩

/-- Two hyphens alone spell nothing, since every long name has a letter. -/
theorem Spells.ne_hyphens {argument : String} (spells : Spells allowed argument step) :
    argument ≠ "--" := by
  intro h
  have hlist : argument.toList = ['-', '-'] := by rw [h]; rfl
  cases spells with
  | long spells =>
      rw [String.toList_ofList] at hlist
      obtain rfl : _ = [] := (List.cons.inj (List.cons.inj hlist).2).2
      generalize hnil : [] = text at spells
      cases spells with
      | @name option => cases option <;> simp [Parameter.long] at hnil
      | value => simp at hnil
  | short _ spells =>
      rw [String.toList_ofList] at hlist
      obtain rfl : _ = ['-'] := (List.cons.inj hlist).2
      exact spells.head_ne rfl

/-! ### Options before a word -/

/-- The values that an option takes from the arguments after it: one, or all up to the next that
looks like an option. -/
structure Takes (option : Parameter) (values rest : List String) : Prop where
  ne_nil : values ≠ []
  plain : ∀ value ∈ values, looksLikeOption value = false
  one : option.takesMany = false → values.length = 1
  all : option.takesMany = true → ∀ next ∈ rest.head?, looksLikeOption next = true

/-- The options at the start of the arguments, and what is left from the first word on that belongs
to none of them. -/
inductive Options (allowed : List Parameter) :
    List String → List Occurrence → List String → Prop where
  | done : Options allowed [] [] []
  | hyphens : Options allowed ["--"] [] []
  | word {argument : String} (plain : looksLikeOption argument = false) (rest : List String) :
      Options allowed (argument :: rest) [] (argument :: rest)
  | complete {argument : String} {arguments rest : List String} {found others : List Occurrence}
      (spells : Spells allowed argument ⟨found, none⟩)
      (hrest : Options allowed arguments others rest) :
      Options allowed (argument :: arguments) (found ++ others) rest
  | taking {argument : String} {option : Parameter} {values arguments rest : List String}
      {found others : List Occurrence} (spells : Spells allowed argument ⟨found, some option⟩)
      (takes : Takes option values arguments) (hrest : Options allowed arguments others rest) :
      Options allowed (argument :: (values ++ arguments)) (found ++ ⟨option, values⟩ :: others) rest

section Scan

variable {option : Parameter} {argument : String} {arguments values rest : List String}
  {occurrences : List Occurrence}

theorem ne_hyphens (plain : looksLikeOption argument = false) : argument ≠ "--" := by
  rintro rfl
  exact absurd plain (by decide)

/-- The options end at the first word that belongs to none of them. -/
theorem scan_word (plain : looksLikeOption argument = false) :
    scan allowed none (argument :: arguments) = .ok ([], argument :: arguments) := by
  rw [scan, if_neg (ne_hyphens plain), plain]
  rfl

theorem scan_value (plain : looksLikeOption argument = false) (one : option.takesMany = false) :
    scan allowed (some ⟨option, []⟩) (argument :: arguments)
      = (scan allowed none arguments).map fun scanned =>
          (⟨option, [argument]⟩ :: scanned.1, scanned.2) := by
  rw [scan, if_neg (ne_hyphens plain), plain]
  simp only [one, Bool.false_eq_true, if_false]
  rfl

/-- An option that takes many values takes one after another. -/
theorem scan_values (many : option.takesMany = true) {more : List String}
    (plain : ∀ value ∈ more, looksLikeOption value = false) :
    scan allowed (some ⟨option, values⟩) (more ++ arguments)
      = scan allowed (some ⟨option, values ++ more⟩) arguments := by
  induction more generalizing values with
  | nil => rw [List.nil_append, List.append_nil]
  | cons first more ih =>
      have hfirst := plain first List.mem_cons_self
      rw [List.cons_append, scan, if_neg (ne_hyphens hfirst), hfirst]
      simp only [many, Bool.false_eq_true, if_false, if_true]
      refine (ih fun value h => plain value (List.mem_cons_of_mem _ h)).trans ?_
      rw [List.append_assoc, List.singleton_append]

/-- Arguments begin with those that are values. -/
theorem exists_values (arguments : List String) :
    ∃ values after, arguments = values ++ after ∧
      (∀ value ∈ values, looksLikeOption value = false) ∧
      ∀ next ∈ after.head?, looksLikeOption next = true := by
  induction arguments with
  | nil => exact ⟨[], [], rfl, List.forall_mem_nil _, by simp⟩
  | cons argument arguments ih =>
      cases hlooks : looksLikeOption argument with
      | true => exact ⟨[], argument :: arguments, rfl, List.forall_mem_nil _, by simpa using hlooks⟩
      | false =>
          obtain ⟨values, after, rfl, hplain, hended⟩ := ih
          exact ⟨argument :: values, after, rfl, List.forall_mem_cons.mpr ⟨hlooks, hplain⟩, hended⟩

/-- Where no value follows, a waiting option is refused. -/
theorem scan_of_no_value (ended : ∀ next ∈ arguments.head?, looksLikeOption next = true) :
    scan allowed (some ⟨option, []⟩) arguments = .error .misuse := by
  cases arguments with
  | nil => rfl
  | cons argument arguments =>
      have hlooks := ended argument rfl
      by_cases hhyphens : argument = "--"
      · rw [scan, if_pos hhyphens]
        rfl
      · rw [scan, if_neg hhyphens, if_pos hlooks]
        rfl

/-- Where no value follows any more, a waiting option with values is complete. -/
theorem scan_of_values (hne : values ≠ [])
    (ended : ∀ next ∈ arguments.head?, looksLikeOption next = true) :
    scan allowed (some ⟨option, values⟩) arguments
      = (scan allowed none arguments).map fun scanned =>
          (⟨option, values⟩ :: scanned.1, scanned.2) := by
  have hclose : close (some ⟨option, values⟩) = .ok [⟨option, values⟩] := by
    rw [close, if_neg (by simpa using hne)]
  cases arguments with
  | nil =>
      rw [scan, hclose]
      rfl
  | cons argument arguments =>
      have hlooks := ended argument rfl
      by_cases hhyphens : argument = "--"
      · rw [scan, scan, if_pos hhyphens, if_pos hhyphens, hclose]
        cases arguments <;> rfl
      · rw [scan, scan, if_neg hhyphens, if_neg hhyphens, if_pos hlooks, if_pos hlooks, hclose]
        cases readOption allowed argument with
        | error stop => rfl
        | ok step =>
            simp only [bind, Except.bind, close, pure, Except.pure]
            cases scan allowed (step.waiting.map (⟨·, []⟩)) arguments with
            | error stop => rfl
            | ok scanned => rfl

/-- A waiting option is read with the values that it takes. -/
theorem scan_waiting_eq_ok_iff :
    scan allowed (some ⟨option, []⟩) arguments = .ok (occurrences, rest) ↔
      ∃ values others after, arguments = values ++ after ∧ Takes option values after ∧
        scan allowed none after = .ok (others, rest) ∧
        occurrences = ⟨option, values⟩ :: others := by
  cases hmany : option.takesMany with
  | false =>
      refine ⟨fun h => ?_, ?_⟩
      · rcases arguments with _ | ⟨argument, arguments⟩
        · rw [scan_of_no_value (by simp)] at h
          cases h
        · cases hlooks : looksLikeOption argument with
          | true =>
              rw [scan_of_no_value (by simp [hlooks])] at h
              cases h
          | false =>
              rw [scan_value hlooks hmany] at h
              obtain ⟨⟨others, after⟩, hothers, h⟩ := map_eq_ok_iff.mp h
              cases h
              exact ⟨[argument], others, arguments, rfl,
                ⟨by simp, by simpa using hlooks, fun _ => rfl, by simp [hmany]⟩, hothers, rfl⟩
      · rintro ⟨values, others, after, rfl, takes, hothers, rfl⟩
        obtain ⟨value, rfl⟩ := List.length_eq_one_iff.mp (takes.one hmany)
        rw [List.singleton_append, scan_value (takes.plain value List.mem_cons_self) hmany, hothers]
        rfl
  | true =>
      refine ⟨fun h => ?_, ?_⟩
      · obtain ⟨values, after, rfl, hplain, hended⟩ := exists_values arguments
        rw [scan_values hmany hplain, List.nil_append] at h
        by_cases hne : values = []
        · rw [hne, scan_of_no_value hended] at h
          cases h
        · rw [scan_of_values hne hended] at h
          obtain ⟨⟨others, rest⟩, hothers, h⟩ := map_eq_ok_iff.mp h
          cases h
          exact ⟨values, others, after, rfl, ⟨hne, hplain, by simp [hmany], fun _ => hended⟩,
            hothers, rfl⟩
      · rintro ⟨values, others, after, rfl, takes, hothers, rfl⟩
        rw [scan_values hmany takes.plain, List.nil_append,
          scan_of_values takes.ne_nil (takes.all hmany), hothers]
        rfl

/-- An argument is read, and then the values of the option that it leaves waiting. -/
theorem scan_option (looks : looksLikeOption argument = true) (hne : argument ≠ "--") :
    scan allowed none (argument :: arguments) = .ok (occurrences, rest) ↔
      ∃ found waiting others, Spells allowed argument ⟨found, waiting⟩ ∧
        scan allowed (waiting.map (⟨·, []⟩)) arguments = .ok (others, rest) ∧
        occurrences = found ++ others := by
  rw [scan, if_neg hne, if_pos looks]
  simp only [close, bind_eq_ok_iff, readOption_eq_ok_iff looks]
  refine ⟨?_, ?_⟩
  · rintro ⟨_, ⟨⟩, ⟨found, waiting⟩, spells, ⟨others, after⟩, hothers, ⟨⟩⟩
    exact ⟨found, waiting, others, spells, hothers, rfl⟩
  · rintro ⟨found, waiting, others, spells, hothers, rfl⟩
    exact ⟨_, rfl, _, spells, _, hothers, rfl⟩

/-- Options are read as they are spelled. -/
theorem scan_eq_ok_iff :
    scan allowed none arguments = .ok (occurrences, rest) ↔
      Options allowed arguments occurrences rest := by
  refine ⟨fun h => ?_, fun options => ?_⟩
  · -- The values of an option are passed over at once, so the rest is not the tail.
    induction hlength : arguments.length using Nat.strong_induction_on generalizing arguments
      occurrences with
    | _ n ih =>
      subst hlength
      rcases arguments with _ | ⟨argument, arguments⟩
      · cases h
        exact .done
      · cases hlooks : looksLikeOption argument with
        | false =>
            rw [scan_word hlooks] at h
            cases h
            exact .word hlooks arguments
        | true =>
            by_cases hhyphens : argument = "--"
            · rw [scan, if_pos hhyphens] at h
              cases arguments with
              | nil =>
                  cases h
                  exact hhyphens ▸ .hyphens
              | cons => cases h
            · obtain ⟨found, waiting, others, spells, hothers, rfl⟩ :=
                (scan_option hlooks hhyphens).mp h
              cases waiting with
              | none => exact .complete spells (ih _ (Nat.lt_succ_self _) hothers rfl)
              | some option =>
                  obtain ⟨values, others, after, rfl, takes, hafter, rfl⟩ :=
                    scan_waiting_eq_ok_iff.mp hothers
                  refine .taking spells takes (ih after.length ?_ hafter rfl)
                  simp only [List.length_cons, List.length_append]
                  omega
  · induction options with
    | done => rfl
    | hyphens => rfl
    | word plain => exact scan_word plain
    | complete spells _ ih =>
        exact (scan_option spells.looksLikeOption spells.ne_hyphens).mpr
          ⟨_, _, _, spells, ih, rfl⟩
    | taking spells takes _ ih =>
        exact (scan_option spells.looksLikeOption spells.ne_hyphens).mpr
          ⟨_, _, _, spells, scan_waiting_eq_ok_iff.mpr ⟨_, _, _, rfl, takes, ih, rfl⟩, rfl⟩

end Scan

end StoreTasks.Arguments
