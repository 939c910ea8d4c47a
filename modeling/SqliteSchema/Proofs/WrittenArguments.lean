import Mathlib.Data.List.Infix
import Mathlib.Data.List.Nodup
import SqliteSchema.CommandArguments

/-!
The arguments that ask for a command: the word of the command, its options behind it in any order,
and the input file among them or in front of the word. A value stands behind an equals sign, or in
an argument of its own if it does not look like an option. Every command can be asked for, with
any values, unless its input file has an empty name.
-/
namespace SqliteSchema.Proofs.WrittenArguments

open PlainText CommandArguments

variable {names : List String} {name value argument : Text} {given found : Options}
  {arguments rest : List Text}

inductive Leads (name value : Text) (rest : List Text) : List Text → Prop
  | attached : Leads name value rest (("--".toList ++ (name ++ '=' :: value)) :: rest)
  | apart (hvalue : isDashed value = false) :
      Leads name value rest (("--".toList ++ name) :: value :: rest)

/-- Arguments that are options and nothing else. Two dashes may end them. -/
inductive Writes (names : List String) : Options → List Text → Prop
  | nil : Writes names [] []
  | stop : Writes names [] ["--".toList]
  | cons {name : String} {value : Text} {more : Options} {rest arguments : List Text}
      (hname : name ∈ names) (hlead : Leads name.toList value rest arguments)
      (hrest : Writes names more rest) : Writes names ((name.toList, value) :: more) arguments

structure IsSettled (given : Options) : Prop where
  distinct : (given.map Prod.fst).Nodup
  filled : ∀ option ∈ given, option.1 = "input".toList → option.2 ≠ []

/-- An option is told from two dashes by its name, and its name from its value by the first
equals sign. -/
def AreNames (names : List String) : Prop :=
  ∀ name ∈ names, name.toList ≠ [] ∧ '=' ∉ name.toList

theorem lookup_isSome_iff : (given.lookup name).isSome = true ↔ name ∈ given.map Prod.fst := by
  rw [List.lookup_isSome_iff, List.mem_map]
  constructor
  · rintro ⟨option, hoption, hname⟩
    exact ⟨option, hoption, (eq_of_beq hname).symm⟩
  · rintro ⟨option, hoption, rfl⟩
    exact ⟨option, hoption, beq_self_eq_true _⟩

theorem isSettled_concat : IsSettled (given ++ [(name, value)]) ↔
    IsSettled given ∧ name ∉ given.map Prod.fst ∧ (name = "input".toList → value ≠ []) := by
  have hdistinct : ((given ++ [(name, value)]).map Prod.fst).Nodup ↔
      name ∉ given.map Prod.fst ∧ (given.map Prod.fst).Nodup := by
    rw [List.map_append, List.map_singleton, ← List.concat_eq_append, List.nodup_concat]
  constructor
  · rintro ⟨hnodup, hfilled⟩
    obtain ⟨hnew, hgiven⟩ := hdistinct.mp hnodup
    exact ⟨⟨hgiven, fun option hoption => hfilled option (List.mem_append_left _ hoption)⟩, hnew,
      hfilled (name, value) (by simp)⟩
  · rintro ⟨⟨hgiven, hfilled⟩, hnew, hvalue⟩
    refine ⟨hdistinct.mpr ⟨hnew, hgiven⟩, ?_⟩
    intro option hoption
    rcases List.mem_append.mp hoption with hbefore | hlast
    · exact hfilled option hbefore
    · rw [List.mem_singleton.mp hlast]
      exact hvalue

theorem isSettled_of_append {more : Options} (h : IsSettled (given ++ more)) : IsSettled given := by
  refine ⟨?_, fun option hoption => h.filled option (List.mem_append_left _ hoption)⟩
  have hdistinct := h.distinct
  rw [List.map_append] at hdistinct
  exact hdistinct.of_append_left

/-- An option is taken just where all options are still settled with it. -/
theorem addOption_eq_some_iff (hgiven : IsSettled given) : addOption name value given = some found ↔
    found = given ++ [(name, value)] ∧ IsSettled found := by
  have hrefused : ((given.lookup name).isSome || (name == "input".toList && value.isEmpty)) = true ↔
      name ∈ given.map Prod.fst ∨ (name = "input".toList ∧ value = []) := by
    rw [Bool.or_eq_true, lookup_isSome_iff]
    simp
  constructor
  · intro h
    unfold addOption at h
    split_ifs at h with hcase
    rw [hrefused, not_or, not_and] at hcase
    obtain rfl := Option.some.inj h
    exact ⟨rfl, isSettled_concat.mpr ⟨hgiven, hcase.1, hcase.2⟩⟩
  · rintro ⟨rfl, hsettled⟩
    obtain ⟨-, hnew, hvalue⟩ := isSettled_concat.mp hsettled
    rw [addOption, if_neg]
    rw [hrefused]
    rintro (hmem | ⟨hinput, hempty⟩)
    · exact hnew hmem
    · exact hvalue hinput hempty

def valueText : Option Text → Text
  | none => []
  | some value => '=' :: value

theorem dropWhile_eq_valueText (written : Text) :
    written.dropWhile (· != '=') = valueText (written.dropWhile (· != '=')).tail? := by
  cases hrest : written.dropWhile (· != '=') with
  | nil => rfl
  | cons c value =>
    have hfirst := List.head?_dropWhile_not (· != '=') written
    rw [hrest] at hfirst
    obtain rfl : c = '=' := by simpa using hfirst
    rfl

theorem takeWhile_append_valueText (hname : '=' ∉ name) (attached : Option Text) :
    (name ++ valueText attached).takeWhile (· != '=') = name ∧
      ((name ++ valueText attached).dropWhile (· != '=')).tail? = attached := by
  have hletters : ∀ c ∈ name, (c != '=') = true := by
    intro c hc
    rw [bne_iff_ne]
    rintro rfl
    exact hname hc
  rw [List.takeWhile_append_of_pos hletters, List.dropWhile_append_of_pos hletters]
  cases attached <;> simp [valueText]

/-- An option is two dashes and its name, perhaps with an equals sign and a value behind it. -/
theorem optionOf?_eq_some_iff (hnames : AreNames names) {attached : Option Text} :
    optionOf? names argument = some (name, attached) ↔
      ∃ word ∈ names, name = word.toList ∧
        argument = "--".toList ++ (word.toList ++ valueText attached) := by
  have hdrop : ∀ written : Text, ("--".toList ++ written).drop 2 = written := fun _ => rfl
  constructor
  · intro h
    simp only [optionOf?] at h
    split_ifs at h with hcase
    obtain ⟨hdashes, hcontains⟩ := Bool.and_eq_true_iff.mp hcase
    obtain ⟨written, rfl⟩ := List.isPrefixOf_iff_prefix.mp hdashes
    rw [hdrop] at h hcontains
    obtain ⟨hname, hattached⟩ := Prod.mk.inj (Option.some.inj h)
    obtain ⟨word, hword, hletters⟩ :
        ∃ word ∈ names, word.toList = written.takeWhile (· != '=') := by simpa using hcontains
    refine ⟨word, hword, hname.symm.trans hletters.symm, ?_⟩
    rw [hletters, ← hattached, ← dropWhile_eq_valueText, List.takeWhile_append_dropWhile]
  · rintro ⟨word, hword, rfl, rfl⟩
    obtain ⟨hname, hattached⟩ := takeWhile_append_valueText (hnames word hword).2 attached
    have hcontains : (names.map String.toList).contains word.toList = true := by
      simpa using ⟨word, hword, rfl⟩
    simp only [optionOf?, hdrop, hname, hattached, hcontains]
    rfl

theorem ne_dashes_of_optionOf? (hnames : AreNames names) {attached : Option Text}
    (h : optionOf? names argument = some (name, attached)) : argument ≠ "--".toList := by
  obtain ⟨word, hword, rfl, rfl⟩ := (optionOf?_eq_some_iff hnames).mp h
  intro h
  have hempty : word.toList ++ valueText attached = [] := by simpa using h
  exact (hnames word hword).1 (List.append_eq_nil_iff.mp hempty).1

/-- The two forms of an option, told by whether its argument has a value of its own. -/
theorem exists_of_leads (hnames : AreNames names) {word : String} (hword : word ∈ names)
    (h : Leads word.toList value rest arguments) :
    (∃ first, arguments = first :: rest ∧
        optionOf? names first = some (word.toList, some value)) ∨
      ∃ first, arguments = first :: value :: rest ∧ isDashed value = false ∧
        optionOf? names first = some (word.toList, none) := by
  cases h with
  | attached => exact .inl ⟨_, rfl, (optionOf?_eq_some_iff hnames).mpr ⟨word, hword, rfl, rfl⟩⟩
  | apart hvalue =>
    refine .inr ⟨_, rfl, hvalue, (optionOf?_eq_some_iff hnames).mpr ⟨word, hword, rfl, ?_⟩⟩
    rw [valueText, List.append_nil]

theorem leads_attached (hnames : AreNames names)
    (h : optionOf? names argument = some (name, some value)) (rest : List Text) :
    ∃ word ∈ names, name = word.toList ∧ Leads word.toList value rest (argument :: rest) := by
  obtain ⟨word, hword, rfl, rfl⟩ := (optionOf?_eq_some_iff hnames).mp h
  exact ⟨word, hword, rfl, .attached⟩

theorem leads_apart (hnames : AreNames names)
    (h : optionOf? names argument = some (name, none)) (hvalue : isDashed value = false)
    (rest : List Text) :
    ∃ word ∈ names, name = word.toList ∧
      Leads word.toList value rest (argument :: value :: rest) := by
  obtain ⟨word, hword, rfl, rfl⟩ := (optionOf?_eq_some_iff hnames).mp h
  rw [valueText, List.append_nil]
  exact ⟨word, hword, rfl, .apart hvalue⟩

/-- An option in front of other arguments is read before them. -/
theorem readOptions_of_leads (hnames : AreNames names) {word : String} (hword : word ∈ names)
    (hlead : Leads word.toList value rest arguments)
    (hsettled : IsSettled (given ++ [(word.toList, value)])) :
    readOptions names given arguments =
      readOptions names (given ++ [(word.toList, value)]) rest := by
  have hadd : addOption word.toList value given = some (given ++ [(word.toList, value)]) :=
    (addOption_eq_some_iff (isSettled_of_append hsettled)).mpr ⟨rfl, hsettled⟩
  rcases exists_of_leads hnames hword hlead with
    ⟨first, rfl, hoption⟩ | ⟨first, rfl, hvalue, hoption⟩
  · rw [readOptions.eq_def]
    simp only [ne_dashes_of_optionOf? hnames hoption, hoption, hadd, if_false]
  · rw [readOptions.eq_def]
    simp only [ne_dashes_of_optionOf? hnames hoption, hoption, hvalue, hadd, Bool.false_eq_true,
      if_false]

/-- Options are read just from arguments that are nothing else, where each is given once. -/
theorem readOptions_eq_some_iff (hnames : AreNames names) (hgiven : IsSettled given) :
    readOptions names given arguments = some found ↔
      ∃ more, Writes names more arguments ∧ found = given ++ more ∧ IsSettled found := by
  constructor
  · intro h
    fun_induction readOptions names given arguments with
    | case1 given =>
      obtain rfl := Option.some.inj h
      exact ⟨[], .nil, (List.append_nil _).symm, hgiven⟩
    | case2 given rest hrest =>
      obtain rfl := Option.some.inj h
      obtain rfl := List.isEmpty_iff.mp hrest
      exact ⟨[], .stop, (List.append_nil _).symm, hgiven⟩
    | case6 given argument hdashes name value rest hoption next hadd ih =>
      obtain ⟨word, hword, rfl, hlead⟩ := leads_attached hnames hoption rest
      obtain ⟨rfl, hnext⟩ := (addOption_eq_some_iff hgiven).mp hadd
      obtain ⟨more, hmore, rfl, hsettled⟩ := ih hnext h
      exact ⟨(word.toList, value) :: more, .cons hword hlead hmore, by simp, hsettled⟩
    | case9 given argument hdashes name value rest hoption next hadd ih =>
      split_ifs at hadd with hvalue
      obtain ⟨word, hword, rfl, hlead⟩ :=
        leads_apart hnames hoption (Bool.not_eq_true _ ▸ hvalue) rest
      obtain ⟨rfl, hnext⟩ := (addOption_eq_some_iff hgiven).mp hadd
      obtain ⟨more, hmore, rfl, hsettled⟩ := ih hnext h
      exact ⟨(word.toList, value) :: more, .cons hword hlead hmore, by simp, hsettled⟩
    | case3 | case4 | case5 | case7 | case8 => simp at h
  · rintro ⟨more, hmore, rfl, hsettled⟩
    induction hmore generalizing given with
    | nil => rw [readOptions, List.append_nil]
    | stop =>
      rw [readOptions.eq_def, List.append_nil]
      rfl
    | @cons word value more rest arguments hword hlead hrest ih =>
      have hassoc : given ++ (word.toList, value) :: more =
          (given ++ [(word.toList, value)]) ++ more := by simp
      rw [hassoc] at hsettled ⊢
      have hnext := isSettled_of_append hsettled
      rw [readOptions_of_leads hnames hword hlead hnext]
      exact ih hnext hsettled

variable {command : Command} {input before : Option Text} {word : String} {invocation : Invocation}

/-- Options that make up a command, with the word that it begins with, and an input file that may
have been named before the word. -/
def Asks (before : Option Text) (word : String) (rest : List Text) (invocation : Invocation) :
    Prop :=
  ∃ names given, (word, names) ∈ commandOptions ∧ Writes ("input" :: names) given rest ∧
    IsSettled given ∧ command? word given = some invocation.command ∧
    invocation.input = (given.value? "input").or before

inductive Opens : Option Text → List Text → List Text → Prop
  | plain (rest : List Text) : Opens none rest rest
  | named {path : Text} {rest arguments : List Text} (hpath : path ≠ [])
      (hlead : Leads "input".toList path rest arguments) : Opens (some path) rest arguments

theorem areNames_of_mem {names : List String} (h : (word, names) ∈ commandOptions) :
    AreNames ("input" :: names) := by
  have hall : ∀ command ∈ commandOptions, ∀ name ∈ "input" :: command.2,
      name.toList ≠ [] ∧ '=' ∉ name.toList := by decide
  exact hall _ h

theorem isSettled_nil : IsSettled [] := ⟨List.nodup_nil, by simp⟩

/-- An invocation is the word of a command with its options behind it. -/
theorem invocation?_eq_some_iff {first : Text} {rest : List Text} :
    invocation? before first rest = some invocation ↔
      ∃ word : String, first = word.toList ∧ Asks before word rest invocation := by
  have hfind : ∀ command ∈ commandOptions,
      commandOptions.find? (fun other => other.1.toList == command.1.toList) = some command := by
    decide
  simp only [invocation?, Option.bind_eq_bind, Option.bind_eq_some_iff]
  constructor
  · rintro ⟨⟨word, names⟩, hword, given, hgiven, command, hcommand, hinvocation⟩
    have hmem := List.mem_of_find?_eq_some hword
    have hfirst := List.find?_some hword
    obtain ⟨more, hmore, hsame, hsettled⟩ :=
      (readOptions_eq_some_iff (areNames_of_mem hmem) isSettled_nil).mp hgiven
    obtain rfl : given = more := hsame
    obtain rfl := Option.some.inj hinvocation
    exact ⟨word, (eq_of_beq hfirst).symm, names, given, hmem, hmore, hsettled, hcommand, rfl⟩
  · rintro ⟨word, rfl, names, given, hmem, hwrites, hsettled, hcommand, hinput⟩
    refine ⟨_, hfind _ hmem, given, ?_, invocation.command, hcommand, ?_⟩
    · exact (readOptions_eq_some_iff (areNames_of_mem hmem) isSettled_nil).mpr
        ⟨given, hwrites, rfl, hsettled⟩
    · rw [← hinput]
      rfl

/-- The word of a command is neither an option nor a question for the version. -/
theorem of_mem_commandOptions {names : List String} (h : (word, names) ∈ commandOptions) :
    ¬(word.toList = "--version".toList ∨ "-V".toList.isPrefixOf word.toList = true) ∧
      optionOf? ["input"] word.toList = none := by
  have hall : ∀ command ∈ commandOptions,
      ¬(command.1.toList = "--version".toList ∨ "-V".toList.isPrefixOf command.1.toList = true) ∧
        optionOf? ["input"] command.1.toList = none := by decide
  exact hall _ h

theorem readArguments_of_asks {rest : List Text} (h : Asks input word rest invocation) :
    readArguments input (word.toList :: rest) = .invocation invocation := by
  obtain ⟨names, given, hmem, -⟩ := id h
  obtain ⟨hversion, hoption⟩ := of_mem_commandOptions hmem
  rw [readArguments.eq_def]
  simp only [hversion, hoption, invocation?_eq_some_iff.mpr ⟨word, rfl, h⟩, if_false]
  rfl

theorem areNames_input : AreNames ["input"] := by
  have hall : ∀ name ∈ ["input"], name.toList ≠ [] ∧ '=' ∉ name.toList := by decide
  exact hall

theorem ne_version_of_optionOf? {attached : Option Text}
    (h : optionOf? ["input"] argument = some (name, attached)) :
    ¬(argument = "--version".toList ∨ "-V".toList.isPrefixOf argument = true) := by
  obtain ⟨word, hword, -, rfl⟩ := (optionOf?_eq_some_iff areNames_input).mp h
  obtain rfl := List.mem_singleton.mp hword
  simp

theorem readArguments_of_leads {path : Text} {rest : List Text} (hpath : path ≠ [])
    (h : Leads "input".toList path rest arguments) :
    readArguments none arguments = readArguments (some path) rest := by
  have hempty : path.isEmpty = false := by simpa using hpath
  rcases exists_of_leads areNames_input (List.mem_singleton.mpr rfl) h with
    ⟨first, rfl, hoption⟩ | ⟨first, rfl, hvalue, hoption⟩
  · rw [readArguments.eq_def]
    simp only [ne_version_of_optionOf? hoption, hoption, hempty, Option.isSome_none, Bool.or_self,
      Bool.false_eq_true, if_false]
  · rw [readArguments.eq_def]
    simp only [ne_version_of_optionOf? hoption, hoption, hempty, hvalue, Option.isSome_none,
      Bool.or_self, Bool.false_eq_true, if_false]

/-- Arguments begin with the word of a command, or with an input file if none is named yet. -/
theorem exists_of_readArguments (h : readArguments input arguments = .invocation invocation) :
    (∃ word rest, arguments = word.toList :: rest ∧ Asks input word rest invocation) ∨
      input = none ∧ ∃ path rest, path ≠ [] ∧ Leads "input".toList path rest arguments ∧
        readArguments (some path) rest = .invocation invocation := by
  fun_induction readArguments input arguments with
  | case1 | case2 | case4 | case6 | case7 => simp at h
  | case3 input argument rest hversion hoption =>
    cases hread : invocation? input argument rest with
    | none => simp [hread] at h
    | some found =>
      obtain rfl : found = invocation := by simpa [hread] using h
      obtain ⟨word, rfl, hasks⟩ := invocation?_eq_some_iff.mp hread
      exact .inl ⟨word, rest, rfl, hasks⟩
  | case5 input argument hversion name path rest hoption hallowed =>
    obtain ⟨hinput, hpath⟩ : input = none ∧ path ≠ [] := by simpa using hallowed
    obtain ⟨word, hword, rfl, hlead⟩ := leads_attached areNames_input hoption rest
    obtain rfl := List.mem_singleton.mp hword
    exact .inr ⟨hinput, path, rest, hpath, hlead, h⟩
  | case8 input argument hversion name path rest hoption hallowed =>
    obtain ⟨⟨hinput, hpath⟩, hvalue⟩ : (input = none ∧ path ≠ []) ∧ isDashed path = false := by
      simpa using hallowed
    obtain ⟨word, hword, rfl, hlead⟩ := leads_apart areNames_input hoption hvalue rest
    obtain rfl := List.mem_singleton.mp hword
    exact .inr ⟨hinput, path, rest, hpath, hlead, h⟩

/-- Arguments ask for a command on an input file or on standard input just where they are the word
of the command with its options behind it, each given once. The input file may be one of the
options or stand in front of the word, and the file that is named last is read. -/
theorem request_eq_invocation_iff :
    request arguments = .invocation invocation ↔
      ∃ before word rest, Opens before (word.toList :: rest) arguments ∧
        Asks before word rest invocation := by
  constructor
  · intro h
    rcases exists_of_readArguments h with ⟨word, rest, rfl, hasks⟩ |
      ⟨-, path, after, hpath, hlead, hafter⟩
    · exact ⟨none, word, rest, .plain _, hasks⟩
    · rcases exists_of_readArguments hafter with ⟨word, rest, rfl, hasks⟩ | ⟨hsome, -⟩
      · exact ⟨some path, word, rest, .named hpath hlead, hasks⟩
      · simp at hsome
  · rintro ⟨before, word, rest, hopens, hasks⟩
    cases hopens with
    | plain => exact readArguments_of_asks hasks
    | named hpath hlead =>
      rw [request, readArguments_of_leads hpath hlead]
      exact readArguments_of_asks hasks

def commandWord : Command → String
  | .inspect _ => "inspect"
  | .compile => "compile"
  | .columns => "columns"
  | .putConstraint _ _ => "add-constraint"
  | .dropConstraint _ => "drop-constraint"

def optionsOf : Command → Options
  | .inspect format => [("format".toList, format)]
  | .compile | .columns => []
  | .putConstraint name clause => [("name".toList, name), ("clause".toList, clause)]
  | .dropConstraint name => [("name".toList, name)]

theorem command?_optionsOf (command : Command) :
    command? (commandWord command) (optionsOf command) = some command := by
  cases command <;> rfl

theorem writes_optionsOf (command : Command) :
    ∃ names, (commandWord command, names) ∈ commandOptions ∧
      ∃ rest, Writes ("input" :: names) (optionsOf command) rest := by
  have hattached : ∀ {names : List String} {name : String} {value : Text} {more : Options},
      name ∈ names → (∃ rest, Writes names more rest) →
        ∃ rest, Writes names ((name.toList, value) :: more) rest := by
    rintro names name value more hname ⟨rest, hrest⟩
    exact ⟨_, .cons hname .attached hrest⟩
  cases command with
  | inspect =>
    exact ⟨["format"], by simp [commandOptions, commandWord],
      hattached (by decide) ⟨_, .nil⟩⟩
  | compile | columns => exact ⟨[], by decide, _, .nil⟩
  | putConstraint =>
    exact ⟨["name", "clause"], by simp [commandOptions, commandWord],
      hattached (by decide) (hattached (by decide) ⟨_, .nil⟩)⟩
  | dropConstraint =>
    exact ⟨["name"], by simp [commandOptions, commandWord],
      hattached (by decide) ⟨_, .nil⟩⟩

theorem isSettled_optionsOf (command : Command) : IsSettled (optionsOf command) := by
  constructor
  · cases command <;> simp [optionsOf]
  · cases command <;> simp [optionsOf]

theorem value?_input_optionsOf (command : Command) : (optionsOf command).value? "input" = none := by
  cases command <;> rfl

theorem ne_nil_of_value? (hgiven : IsSettled given) (h : given.value? "input" = some value) :
    value ≠ [] := by
  obtain ⟨left, right, rfl, -⟩ := List.lookup_eq_some_iff.mp h
  exact hgiven.filled ("input".toList, value) (by simp) rfl

/-- Every command can be asked for, with any values, on standard input and on every file that has
a name. -/
theorem exists_request_eq_iff :
    (∃ arguments, request arguments = .invocation invocation) ↔ invocation.input ≠ some [] := by
  simp only [request_eq_invocation_iff]
  constructor
  · rintro ⟨arguments, before, word, rest, hopens, names, given, -, -, hgiven, -, hinput⟩ hempty
    rw [hinput, Option.or_eq_some_iff] at hempty
    rcases hempty with hempty | ⟨-, rfl⟩
    · exact ne_nil_of_value? hgiven hempty rfl
    · cases hopens with
      | named hpath => exact hpath rfl
  · intro hinput
    obtain ⟨input, command⟩ := invocation
    obtain ⟨names, hmem, rest, hrest⟩ := writes_optionsOf command
    have hasks : Asks input (commandWord command) rest ⟨input, command⟩ := by
      refine ⟨names, _, hmem, hrest, isSettled_optionsOf command, command?_optionsOf command, ?_⟩
      rw [value?_input_optionsOf, Option.none_or]
    cases input with
    | none => exact ⟨_, none, _, rest, .plain _, hasks⟩
    | some path =>
      have hpath : path ≠ [] := fun hempty => hinput (congrArg some hempty)
      exact ⟨_, some path, _, rest, .named hpath .attached, hasks⟩

end SqliteSchema.Proofs.WrittenArguments
