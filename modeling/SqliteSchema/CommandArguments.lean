import SqliteSchema.PlainText

/-!
The arguments of the command line: one of five commands with its options, and
optionally the file that holds the schema dump. An option is written --name value
or --name=value and is given at most once.
-/
namespace SqliteSchema.CommandArguments

open PlainText

inductive Command where
  | inspect (format : Text)
  | compile
  | columns
  | putConstraint (name clause : Text)
  | dropConstraint (name : Text)
  deriving DecidableEq

structure Invocation where
  input : Option Text
  command : Command
  deriving DecidableEq

inductive Request where
  | version
  | invocation (invocation : Invocation)
  | misuse
  deriving DecidableEq

abbrev Options := List (Text × Text)

def Options.value? (name : String) (given : Options) : Option Text := given.lookup name.toList

def isDashed (argument : Text) : Bool := argument.head? == some '-' && argument.length ≥ 2

/-- An option has one value, and the name of an input file is not empty. -/
def addOption (name value : Text) (given : Options) : Option Options :=
  if (given.lookup name).isSome || (name == "input".toList && value.isEmpty) then none
  else some (given ++ [(name, value)])

def optionOf? (names : List String) (argument : Text) : Option (Text × Option Text) :=
  let written := argument.drop 2
  let name := written.takeWhile (· != '=')
  if "--".toList.isPrefixOf argument && (names.map String.toList).contains name then
    some (name, (written.dropWhile (· != '=')).tail?)
  else none

/-- Reads options to the end of the arguments. Two dashes alone end the options,
and nothing may follow them. -/
def readOptions (names : List String) (given : Options) : List Text → Option Options
  | [] => some given
  | argument :: rest =>
      if argument = "--".toList then if rest.isEmpty then some given else none
      else
        match optionOf? names argument, rest with
        | none, _ => none
        | some (name, some value), rest =>
            match addOption name value given with
            | none => none
            | some given => readOptions names given rest
        | some (_, none), [] => none
        | some (name, none), value :: rest =>
            match if isDashed value then none else addOption name value given with
            | none => none
            | some given => readOptions names given rest

def commandOptions : List (String × List String) :=
  [("inspect", ["format"]), ("compile", []), ("columns", []),
   ("add-constraint", ["name", "clause"]), ("drop-constraint", ["name"])]

def command? (word : String) (given : Options) : Option Command :=
  match word with
  | "inspect" => some (.inspect ((given.value? "format").getD "json".toList))
  | "compile" => some .compile
  | "columns" => some .columns
  | "add-constraint" => do
      return .putConstraint (← given.value? "name") (← given.value? "clause")
  | "drop-constraint" => (given.value? "name").map .dropConstraint
  | _ => none

/-- An input file named after the command wins over one named before it. -/
def invocation? (input : Option Text) (word : Text) (arguments : List Text) :
    Option Invocation := do
  let (word, names) ← commandOptions.find? fun command => command.1.toList == word
  let given ← readOptions ("input" :: names) [] arguments
  let command ← command? word given
  return ⟨(given.value? "input").or input, command⟩

/-- Only the input file and the version may be asked for before the command. -/
def readArguments (input : Option Text) : List Text → Request
  | [] => .misuse
  | argument :: rest =>
      if argument = "--version".toList ∨ "-V".toList.isPrefixOf argument then .version
      else
        match optionOf? ["input"] argument, rest with
        | none, rest => ((invocation? input argument rest).map .invocation).getD .misuse
        | some (_, some path), rest =>
            if input.isSome || path.isEmpty then .misuse else readArguments (some path) rest
        | some (_, none), [] => .misuse
        | some (_, none), path :: rest =>
            if input.isSome || path.isEmpty || isDashed path then .misuse
            else readArguments (some path) rest

def request (arguments : List Text) : Request := readArguments none arguments

end SqliteSchema.CommandArguments
