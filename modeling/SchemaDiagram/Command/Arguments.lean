import SchemaDiagram.Command.Basic

/-!
# Arguments

The command line consists of options for all commands, the command, and the command's own options.
At each level the arguments are read from left to right; what comes first decides, so that help is
given even if an error would follow, and an error counts even if a call for help would follow.
Options that exclude each other are found out at the end of their level.
-/

namespace SchemaDiagram

/-- What is wrong with a command line. -/
inductive UsageError where
  /-- The command is missing. -/
  | missingCommand
  /-- There is no such command. -/
  | unknownCommand (name : String)
  /-- Nothing like the argument is expected here. -/
  | unexpectedArgument (argument : String)
  /-- The option needs a value. -/
  | missingValue (option : String)
  /-- The option does not take this value. -/
  | invalidValue (option value : String)
  /-- The option is given more than once. -/
  | repeatedOption (option : String)
  /-- The options exclude each other. -/
  | conflict (first second : String)
  deriving DecidableEq, Repr

/-- The wording of the error. -/
def UsageError.message : UsageError → String
  | missingCommand => "error: a subcommand is required"
  | unknownCommand name => "error: unrecognized subcommand '" ++ name ++ "'"
  | unexpectedArgument argument => "error: unexpected argument '" ++ argument ++ "' found"
  | missingValue option => "error: a value is required for '--" ++ option ++ "'"
  | invalidValue option value =>
    "error: invalid value '" ++ value ++ "' for '--" ++ option ++ "'"
  | repeatedOption option => "error: the argument '--" ++ option ++ "' cannot be used multiple times"
  | conflict first second =>
    "error: the argument '--" ++ first ++ "' cannot be used with '--" ++ second ++ "'"

namespace Arguments

/-- An option that may be given at some level. -/
structure OptionSpec where
  /-- The name behind two dashes. -/
  name : String
  /-- The letter behind one dash. -/
  letter : Option Char := none
  /-- The values that the option takes; `none` if it takes no value. -/
  accepts : Option (String → Bool) := none
  /-- Whether the option may be given several times. -/
  repeatable : Bool := false

/-- What may be given at some level. -/
structure Level where
  /-- The options. -/
  options : List OptionSpec
  /-- What help is asked about at this level. -/
  topic : Topic
  /-- Whether the version can be asked for. -/
  hasVersion : Bool := false
  /-- The commands that may follow. -/
  commands : List String := []

/-- Why the reading of arguments ends before the command is known. -/
inductive Stop where
  /-- Something is wrong. -/
  | error (e : UsageError)
  /-- Something else is asked for. -/
  | request (r : Request)
  deriving DecidableEq, Repr

/-- An option that was given, with its value if it takes one. -/
structure Given where
  /-- The name of the option. -/
  name : String
  /-- The value; empty for an option without one. -/
  value : String := ""
  deriving DecidableEq, Repr

/-- What was read at a level: the options, and the command with the arguments after it. -/
structure Reading where
  /-- The options, in the order in which they were given. -/
  given : List Given
  /-- The command and its arguments. -/
  command : Option (String × List String)
  deriving DecidableEq, Repr

/-- Adds an option, unless it may not be given again. -/
def addOption (spec : OptionSpec) (value : String) (given : List Given) :
    Except Stop (List Given) :=
  if !spec.repeatable && given.any (·.name == spec.name) then
    .error (.error (.repeatedOption spec.name))
  else .ok (given ++ [{ name := spec.name, value }])

/-- Adds an option with its value, if it takes that value. -/
def addValue (spec : OptionSpec) (accepts : String → Bool) (value : String) (given : List Given) :
    Except Stop (List Given) :=
  if accepts value then addOption spec value given
  else .error (.error (.invalidValue spec.name value))

/-- Reads the letters behind a single dash. -/
def readLetters (level : Level) (argument : String) (given : List Given) :
    List Char → Except Stop (List Given)
  | [] => .ok given
  | letter :: letters =>
    if letter = 'h' then .error (.request (.help level.topic false))
    else if letter = 'V' ∧ level.hasVersion then .error (.request .version)
    else
      match level.options.find? fun spec ↦ spec.letter == some letter with
      | some spec => do readLetters level argument (← addOption spec "" given) letters
      | none => .error (.error (.unexpectedArgument argument))

/-- Whether an argument is an option rather than a value: it starts with a dash and goes on. -/
def isOption (argument : String) : Bool :=
  match argument.toList with
  | '-' :: _ :: _ => true
  | _ => false

/-- The name of an option and the value behind an equals sign, if there is one. -/
def splitEquals (text : List Char) : String × Option String :=
  (String.ofList (text.takeWhile (· != '=')),
    match text.dropWhile (· != '=') with
    | _ :: value => some (String.ofList value)
    | [] => none)

/-- Reads the arguments of a level. -/
def readLevel (level : Level) (given : List Given) : List String → Except Stop Reading
  | [] => .ok { given, command := none }
  | argument :: rest =>
    match argument.toList with
    | '-' :: '-' :: [] =>
      match rest with
      | [] => .ok { given, command := none }
      | next :: _ => .error (.error (.unexpectedArgument next))
    | '-' :: '-' :: text =>
      let (name, attached) := splitEquals text
      if name = "help" ∧ attached = none then .error (.request (.help level.topic true))
      else if name = "version" ∧ level.hasVersion ∧ attached = none then .error (.request .version)
      else
        match level.options.find? fun spec ↦ spec.name == name with
        | none => .error (.error (.unexpectedArgument argument))
        | some spec =>
          match spec.accepts, attached with
          | none, none => do readLevel level (← addOption spec "" given) rest
          | none, some _ => .error (.error (.unexpectedArgument argument))
          | some accepts, some value => do
            readLevel level (← addValue spec accepts value given) rest
          | some accepts, none =>
            match rest with
            | [] => .error (.error (.missingValue name))
            | value :: rest =>
              if isOption value then .error (.error (.missingValue name))
              else do readLevel level (← addValue spec accepts value given) rest
    | '-' :: c :: letters => do
      readLevel level (← readLetters level argument given (c :: letters)) rest
    | _ =>
      if level.commands.contains argument then .ok { given, command := some (argument, rest) }
      else if level.commands.isEmpty then .error (.error (.unexpectedArgument argument))
      else .error (.error (.unknownCommand argument))

/-- Whether an option was given. -/
def has (given : List Given) (name : String) : Bool := given.any (·.name == name)

/-- The value of an option that is given at most once. -/
def valueOf? (given : List Given) (name : String) : Option String :=
  (given.find? (·.name == name)).map (·.value)

/-- The values of an option. -/
def valuesOf (given : List Given) (name : String) : List String :=
  (given.filter (·.name == name)).map (·.value)

/-- A path must not be empty. -/
def acceptsPath (value : String) : Bool := !value.isEmpty

/-- The options that select sources. -/
def selectionOptions : List OptionSpec :=
  [{ name := "models-dir", accepts := some acceptsPath },
    { name := "only", accepts := some fun _ ↦ true, repeatable := true },
    { name := "recursive" }, { name := "no-recursive" }]

/-- The level of the program. -/
def programLevel : Level where
  options :=
    [{ name := "output", accepts := some fun value ↦ Format.all.any (·.word == value) },
      { name := "quiet", letter := some 'q' }, { name := "verbose", letter := some 'v' },
      { name := "no-color" }]
  topic := .program
  hasVersion := true
  commands := ["init", "generate", "inspect", "help"]

/-- The level of the command that writes a settings file. -/
def initLevel : Level where
  options := [{ name := "force" }]
  topic := .init

/-- The level of the command that makes the diagram. -/
def generateLevel : Level where
  options := selectionOptions ++
    [{ name := "out", accepts := some acceptsPath }, { name := "stdout" }]
  topic := .generate

/-- The level of the commands that show what is found. -/
def inspectLevel : Level where
  options := []
  topic := .inspect
  commands := Subject.all.map Subject.word ++ ["help"]

/-- The level of one of those commands. -/
def subjectLevel (subject : Subject) : Level where
  options := selectionOptions
  topic := .subject subject

/-- Refuses two options that exclude each other. -/
def exclude (given : List Given) (first second : String) : Except Stop Unit :=
  if has given first && has given second then .error (.error (.conflict first second))
  else .ok ()

/-- The selection of sources. -/
def readSelection (given : List Given) : Except Stop Selection := do
  exclude given "recursive" "no-recursive"
  .ok
    { modelsDir := valueOf? given "models-dir"
      only := valuesOf given "only"
      recursive :=
        if has given "recursive" then some true
        else if has given "no-recursive" then some false
        else none }

/-- The options for all commands. -/
def readGlobalOptions (given : List Given) : GlobalOptions where
  format := ((valueOf? given "output").bind fun word ↦
    Format.all.find? (·.word == word)).getD .table
  quiet := has given "quiet"
  verbose := has given "verbose"
  plain := has given "no-color"

/-- The topic that help is asked about by name. -/
def readTopic (names : List String) : Except Stop Topic :=
  match names with
  | [] => .ok .program
  | ["init"] => .ok .init
  | ["generate"] => .ok .generate
  | ["inspect"] => .ok .inspect
  | ["inspect", word] =>
    match Subject.all.find? (·.word == word) with
    | some subject => .ok (.subject subject)
    | none => .error (.error (.unknownCommand word))
  | name :: _ => .error (.error (.unknownCommand name))

/-- The inspection that arguments ask for. -/
def readInspect (arguments : List String) : Except Stop Command := do
  let reading ← readLevel inspectLevel [] arguments
  match reading.command with
  | none => .error (.error .missingCommand)
  | some ("help", names) => .error (.request (.help (← readTopic ("inspect" :: names)) true))
  | some (word, arguments) =>
    match Subject.all.find? (·.word == word) with
    | none => .error (.error (.unknownCommand word))
    | some subject =>
      let reading ← readLevel (subjectLevel subject) [] arguments
      .ok (.inspect subject (← readSelection reading.given))

/-- The command that a name and its arguments ask for. -/
def readCommand (name : String) (arguments : List String) : Except Stop Command := do
  match name with
  | "init" =>
    let reading ← readLevel initLevel [] arguments
    .ok (.init (has reading.given "force"))
  | "generate" =>
    let reading ← readLevel generateLevel [] arguments
    let selection ← readSelection reading.given
    exclude reading.given "stdout" "out"
    .ok (.generate selection
      (if has reading.given "stdout" then .standardOutput
        else .file (valueOf? reading.given "out")))
  | "inspect" => readInspect arguments
  | "help" => .error (.request (.help (← readTopic arguments) true))
  | name => .error (.error (.unknownCommand name))

/-- What a command line asks for. -/
def read (arguments : List String) : Except Stop Request := do
  let reading ← readLevel programLevel [] arguments
  match reading.command with
  | none => .error (.error .missingCommand)
  | some (name, arguments) =>
    let command ← readCommand name arguments
    .ok (.run (readGlobalOptions reading.given) command)

/-- What a command line asks for, or what is wrong with it. -/
def parse (arguments : List String) : Except UsageError Request :=
  match read arguments with
  | .ok request => .ok request
  | .error (.request request) => .ok request
  | .error (.error e) => .error e

end Arguments

end SchemaDiagram
