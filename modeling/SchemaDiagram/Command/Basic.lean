import SchemaDiagram.Disk.Path

/-!
# Commands

What a command line can ask for.
-/

namespace SchemaDiagram

/-- The form in which data is shown. -/
inductive Format where
  /-- A table for people. -/
  | table
  /-- JSON for programs. -/
  | json
  /-- A line for each item. -/
  | compact
  deriving DecidableEq, Repr

/-- The word for a format. -/
def Format.word : Format → String
  | table => "table"
  | json => "json"
  | compact => "compact"

/-- Every format. -/
def Format.all : List Format := [.table, .json, .compact]

/-- What is asked for in front of the command. -/
structure GlobalOptions where
  /-- The form in which data is shown. -/
  format : Format := .table
  /-- Whether only errors are shown. -/
  quiet : Bool := false
  /-- Whether details are shown. -/
  verbose : Bool := false
  /-- Whether colours are turned off. -/
  plain : Bool := false
  deriving DecidableEq, Repr

/-- Which sources are read, where it differs from the settings. -/
structure Selection where
  /-- The models directory. -/
  modelsDir : Option Path := none
  /-- The names of the files that count. -/
  only : List String := []
  /-- Whether subdirectories are searched. -/
  recursive : Option Bool := none
  deriving DecidableEq, Repr

/-- Where a diagram goes. -/
inductive Target where
  /-- To the standard output. -/
  | standardOutput
  /-- To a file, which the settings name unless it is given. -/
  | file (path : Option Path)
  deriving DecidableEq, Repr

/-- What is inspected. -/
inductive Subject where
  /-- The models with their fields. -/
  | models
  /-- The declared associations. -/
  | associations
  /-- The edges between models. -/
  | edges
  deriving DecidableEq, Repr

/-- The word for a subject. -/
def Subject.word : Subject → String
  | models => "models"
  | associations => "associations"
  | edges => "edges"

/-- Every subject. -/
def Subject.all : List Subject := [.models, .associations, .edges]

/-- A command. -/
inductive Command where
  /-- Write a settings file; `force` replaces an existing one. -/
  | init (force : Bool)
  /-- Make the diagram. -/
  | generate (selection : Selection) (target : Target)
  /-- Show what is found. -/
  | inspect (subject : Subject) (selection : Selection)
  deriving DecidableEq, Repr

/-- What help is asked about. -/
inductive Topic where
  /-- The program. -/
  | program
  /-- The command that writes a settings file. -/
  | init
  /-- The command that makes the diagram. -/
  | generate
  /-- The commands that show what is found. -/
  | inspect
  /-- One of those commands. -/
  | subject (subject : Subject)
  deriving DecidableEq, Repr

/-- What a command line asks for. -/
inductive Request where
  /-- The help on a topic, with examples if it is asked for in full. -/
  | help (topic : Topic) (full : Bool)
  /-- The version of the program. -/
  | version
  /-- A command. -/
  | run (options : GlobalOptions) (command : Command)
  deriving DecidableEq, Repr

end SchemaDiagram
