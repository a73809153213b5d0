import SchemaDiagram.Command.Basic
import SchemaDiagram.Terminal

/-!
# Help

The help on a topic says how the command line is written. In full it ends with an appendix: the
environment variables for the program, and examples for its commands.
-/

namespace SchemaDiagram.Help

open Terminal (Colour)

/-- Example command lines under a title. -/
structure ExampleGroup where
  /-- What the examples are about. -/
  title : String
  /-- The command lines. -/
  commands : List String

/-- A text in a colour, as far as there are colours. -/
def styled (colours : Bool) (colour : Colour) (bold : Bool) (text : String) : String :=
  if colours then Terminal.paint colour bold text else text

/-- The lines of a group of examples. -/
def groupLines (colours : Bool) (group : ExampleGroup) : List String :=
  ("  " ++ styled colours .brightBlue true group.title) ::
    group.commands.map fun command ↦
      "    " ++ styled colours .magenta false "→" ++ " " ++ styled colours .magenta false command

/-- The lines of groups of examples, which empty lines set apart. -/
def exampleLines (colours : Bool) (groups : List ExampleGroup) : List String :=
  styled colours .cyan true "Examples:" ::
    List.intercalate [""] (groups.map (groupLines colours))

/-- The examples for the command that writes a settings file. -/
def initExamples : List ExampleGroup :=
  [{ title := "Setup"
     commands :=
      ["sequelize-erd init             # Write sequelize-erd.toml with default settings",
        "sequelize-erd init --force     # Overwrite an existing config file"] }]

/-- The examples for the command that makes the diagram. -/
def generateExamples : List ExampleGroup :=
  [{ title := "Render Diagram"
     commands :=
      ["sequelize-erd generate                          # Scan src/models, write mermaid-diagram.mmd",
        "sequelize-erd generate --models-dir db/models   # Scan a different directory",
        "sequelize-erd generate --out docs/erd.mmd       # Write the diagram elsewhere",
        "sequelize-erd generate --stdout > erd.mmd       # Print the diagram instead of writing it"] },
    { title := "Select Files"
      commands :=
      ["sequelize-erd generate --only user.ts --only post.ts   # Restrict to named files",
        "sequelize-erd generate --recursive                     # Include subdirectories",
        "sequelize-erd generate --no-recursive                  # Ignore recursive = true in the config",
        "sequelize-erd -v generate                              # List every scanned file"] }]

/-- The examples for the commands that show what is found. -/
def inspectExamples : List ExampleGroup :=
  [{ title := "Extracted Data"
     commands :=
      ["sequelize-erd inspect models                  # Models and their fields",
        "sequelize-erd inspect associations            # Every association call found",
        "sequelize-erd inspect edges                   # One resolved relationship per model pair"] },
    { title := "Scripting"
      commands :=
      ["sequelize-erd --output json inspect edges     # Edges as JSON",
        "sequelize-erd --output compact inspect models --only user.ts"] }]

/-- The environment variables of the program. -/
def environmentVariables : List (String × String) :=
  [("RUST_LOG", "Diagnostic log filter, e.g. sequelize_erd=debug"),
    ("NO_COLOR", "Disable colored output when set")]

/-- The lines about the environment, and a hint at the help on commands. -/
def environmentLines (colours : Bool) : List String :=
  styled colours .cyan true "Environment Variables:" ::
    environmentVariables.map (fun (name, description) ↦
      "  " ++ styled colours .brightCyan true name ++ "  " ++ styled colours .white false description)
    ++ ["", styled colours .cyan true "Tip:" ++ " "
      ++ styled colours .magenta false "Run 'sequelize-erd <command> --help' for examples."]

/-- The lines of the appendix on a topic. -/
def appendix (colours : Bool) : Topic → List String
  | .program => environmentLines colours
  | .init => exampleLines colours initExamples
  | .generate => exampleLines colours generateExamples
  | .inspect => exampleLines colours inspectExamples
  | .subject _ => []

/-- How the options for all commands are written. -/
def globalUsage : List String :=
  ["Options:",
    "      --output <OUTPUT>  Output format [default: table] [possible values: table, json, compact]",
    "  -q, --quiet            Suppress output (only errors will be shown)",
    "  -v, --verbose          Enable verbose output",
    "      --no-color         Disable colored output",
    "  -h, --help             Print help",
    "  -V, --version          Print version"]

/-- How the options that select sources are written. -/
def selectionUsage : List String :=
  ["      --models-dir <DIR>  Directory holding the model files (default from config: src/models)",
    "      --only <NAME>       Only scan these file names (repeatable)",
    "      --recursive         Descend into subdirectories",
    "      --no-recursive      Stay in the models directory even if the config says recursive"]

/-- The lines that say how the command line is written. -/
def usage : Topic → List String
  | .program =>
    ["Render Sequelize models and associations as a Mermaid ER diagram", "",
      "Usage: sequelize-erd [OPTIONS] <COMMAND>", "", "Commands:",
      "  init      Write a default sequelize-erd.toml in the project root",
      "  generate  Scan model files and write the Mermaid diagram",
      "  inspect   Show what was extracted from the model files",
      "  help      Print this message or the help of the given subcommand(s)", ""] ++ globalUsage
  | .init =>
    ["Write a default sequelize-erd.toml in the project root", "",
      "Usage: sequelize-erd init [OPTIONS]", "", "Options:",
      "      --force  Overwrite an existing config file",
      "  -h, --help   Print help"]
  | .generate =>
    ["Scan model files and write the Mermaid diagram", "",
      "Usage: sequelize-erd generate [OPTIONS]", "", "Options:"] ++ selectionUsage ++
    ["      --out <FILE>        Diagram file to write (default from config: mermaid-diagram.mmd)",
      "      --stdout            Print the diagram to stdout instead of writing a file",
      "  -h, --help              Print help"]
  | .inspect =>
    ["Show what was extracted from the model files", "",
      "Usage: sequelize-erd inspect <COMMAND>", "", "Commands:",
      "  models        List extracted models and fields",
      "  associations  List association declarations in source order",
      "  edges         List synthesized relationship edges",
      "  help          Print this message or the help of the given subcommand(s)", "",
      "Options:", "  -h, --help  Print help"]
  | .subject subject =>
    ["Usage: sequelize-erd inspect " ++ subject.word ++ " [OPTIONS]", "", "Options:"]
      ++ selectionUsage ++ ["  -h, --help              Print help"]

/-- The help on a topic, without the line break at its end. -/
def text (colours : Bool) (topic : Topic) (full : Bool) : String :=
  let lines := usage topic ++
    if full && !(appendix colours topic).isEmpty then "" :: appendix colours topic else []
  String.intercalate "\n" lines

end SchemaDiagram.Help
