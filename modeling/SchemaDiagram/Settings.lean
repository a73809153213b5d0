import SchemaDiagram.Toml.Document

/-!
# Settings

The settings of a project: where its model sources are, which of them count, and where the diagram
goes. They are kept in a TOML file, in which every key may be missing and unknown keys are passed
over. A group of settings may also be written as a list of its values in their order.
-/

namespace SchemaDiagram

/-- Which files are read as model sources. -/
structure ScanSettings where
  /-- The directory of the sources. -/
  modelsDir : String := "src/models"
  /-- The extensions of source files, with or without leading dots. -/
  extensions : List String := ["ts", "js"]
  /-- Whether subdirectories are searched. -/
  recursive : Bool := false
  /-- The names of the files that count; empty if all do. -/
  only : List String := []
  deriving DecidableEq, Repr

/-- Where the diagram goes. -/
structure OutputSettings where
  /-- The file to which the diagram is written. -/
  file : String := "mermaid-diagram.mmd"
  deriving DecidableEq, Repr

/-- The settings of a project. -/
structure Settings where
  /-- What is read. -/
  scan : ScanSettings := {}
  /-- What is written. -/
  output : OutputSettings := {}
  deriving DecidableEq, Repr

namespace ScanSettings

/-- Whether a file of this name counts. -/
def allows (s : ScanSettings) (fileName : String) : Bool :=
  s.only.isEmpty || s.only.contains fileName

/-- A text in lower case, as far as its ASCII letters go. -/
def lowerAscii (text : List Char) : List Char := text.map Char.toLower

/-- Whether files with this extension count. Leading dots of a setting and the case of ASCII
letters do not matter. -/
def acceptsExtension (s : ScanSettings) (ext : String) : Bool :=
  s.extensions.any fun accepted ↦
    lowerAscii (accepted.toList.dropWhile (· == '.')) == lowerAscii ext.toList

end ScanSettings

/-! ### Reading -/

namespace Settings

open Toml (Value)

/-- A text. -/
def readString : Value → Option String
  | .string text => some text
  | _ => none

/-- A list of texts. -/
def readStrings : Value → Option (List String)
  | .array items => items.mapM readString
  | _ => none

/-- A truth value. -/
def readBool : Value → Option Bool
  | .boolean value => some value
  | _ => none

/-- The setting of a name, or its default where it is missing. A value of the wrong kind is an
error. -/
def readEntry {α : Type} (name : String) (read : Value → Option α) (default : α)
    (entries : List (String × Value)) : Option α :=
  match entries.lookup name with
  | some value => read value
  | none => some default

/-- The entries of a group of settings, which is a table or lists its values in order. -/
def groupEntries (names : List String) : Value → Option (List (String × Value))
  | .table entries => some entries
  | .array items => some (names.zip items)
  | _ => none

/-- The settings that say what is read. -/
def readScan (value : Value) : Option ScanSettings := do
  let entries ← groupEntries ["models_dir", "extensions", "recursive", "only"] value
  let defaults : ScanSettings := {}
  let modelsDir ← readEntry "models_dir" readString defaults.modelsDir entries
  let extensions ← readEntry "extensions" readStrings defaults.extensions entries
  let recursive ← readEntry "recursive" readBool defaults.recursive entries
  let only ← readEntry "only" readStrings defaults.only entries
  some { modelsDir, extensions, recursive, only }

/-- The settings that say what is written. -/
def readOutput (value : Value) : Option OutputSettings := do
  let entries ← groupEntries ["file"] value
  let file ← readEntry "file" readString ({} : OutputSettings).file entries
  some { file }

/-- The settings in the root table of a document. -/
def ofEntries (entries : List (String × Value)) : Option Settings := do
  let scan ← readEntry "scan" readScan {} entries
  let output ← readEntry "output" readOutput {} entries
  some { scan, output }

/-- The settings of a TOML text, unless the text is no document or a value is of the wrong kind. -/
def parse? (text : String) : Option Settings :=
  (Toml.parse? text).bind ofEntries

/-! ### Writing -/

/-- A text as a TOML value. -/
def writeString (text : String) : String := String.ofList (Toml.writeString text.toList)

/-- A truth value as a TOML value. -/
def writeBool (value : Bool) : String := if value then "true" else "false"

/-- A list of texts as a TOML value: two or more items stand on lines of their own, each with a
comma. -/
def writeStrings : List String → String
  | [] => "[]"
  | [item] => "[" ++ writeString item ++ "]"
  | items => "[\n" ++ String.join (items.map fun item ↦ "    " ++ writeString item ++ ",\n") ++ "]"

/-- The settings as a TOML text. -/
def render (s : Settings) : String :=
  "[scan]\nmodels_dir = " ++ writeString s.scan.modelsDir
    ++ "\nextensions = " ++ writeStrings s.scan.extensions
    ++ "\nrecursive = " ++ writeBool s.scan.recursive
    ++ "\nonly = " ++ writeStrings s.scan.only
    ++ "\n\n[output]\nfile = " ++ writeString s.output.file ++ "\n"

end Settings

end SchemaDiagram
