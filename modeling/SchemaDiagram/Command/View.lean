import SchemaDiagram.Command.Basic
import SchemaDiagram.Json.Printer
import SchemaDiagram.Report
import SchemaDiagram.Schema.Json
import SchemaDiagram.Table

/-!
# Views

Each kind of data that a command shows has three views: a table, JSON, and compact lines.
-/

namespace SchemaDiagram

/-- The views of some data. -/
structure View where
  /-- The table. -/
  table : Table
  /-- The JSON value. -/
  json : Json
  /-- The compact form. -/
  compact : String

/-- The text of a view in a format. Without colours a table has a frame of ASCII characters. -/
def View.text (v : View) (format : Format) (plain : Bool) : String :=
  match format with
  | .table => v.table.render (if plain then Frame.ascii else Frame.boxed)
  | .json => v.json.print
  | .compact => v.compact

namespace View

/-- How a flag is shown in a table. -/
def flagCell (value : Bool) : String := if value then "yes" else ""

/-- How an option is shown in a table. -/
def optionCell (value : Option String) : String := value.getD "-"

/-- The rows of a model: one for each field, the first of which names the model. -/
def modelRows (m : Model) : List (List String) :=
  if m.fields.isEmpty then [[m.name, "(no fields)"]]
  else m.fields.mapIdx fun i f ↦
    [if i = 0 then m.name else "", f.name, f.type.tag, flagCell f.nullable,
      flagCell f.primaryKey, flagCell f.foreignKey]

/-- The models. -/
def ofModels (models : List Model) : View where
  table :=
    { header := ["Model", "Field", "Type", "Nullable", "PK", "FK"]
      rows := models.flatMap modelRows }
  json := .array (models.map Model.toJson)
  compact := String.intercalate "\n" (models.map fun m ↦
    m.name ++ "(" ++ String.intercalate ", " (m.fields.map Field.name) ++ ")")

/-- The associations. -/
def ofAssociations (associations : List Association) : View where
  table :=
    { header :=
        ["Source", "Kind", "Target", "As", "Through", "Foreign Key", "Source Key", "Target Key"]
      rows := associations.map fun a ↦
        [a.source, a.kind.keyword, a.target, optionCell a.aliasName, optionCell a.through,
          optionCell a.foreignKey, optionCell a.sourceKey, optionCell a.targetKey] }
  json := .array (associations.map Association.toJson)
  compact := String.intercalate "\n" (associations.map fun a ↦
    a.source ++ "." ++ a.kind.keyword ++ "(" ++ a.target ++ ")")

/-- The edges. -/
def ofEdges (edges : List Edge) : View where
  table :=
    { header := ["Left", "Cardinality", "Right", "Label"]
      rows := edges.map fun e ↦
        [e.left, (e.cardinality.map Cardinality.word).getD "unclassified", e.right,
          optionCell e.label] }
  json := .array (edges.map Edge.toJson)
  compact := String.intercalate "\n" (edges.map Diagram.edgeLine)

/-- What a subject of inspection is in a report. -/
def ofReport (subject : Subject) (r : Report) : View :=
  match subject with
  | .models => ofModels r.models
  | .associations => ofAssociations r.associations
  | .edges => ofEdges r.edges

/-- A number as it is shown. -/
def count (n : Nat) : String := String.ofList (Nat.toDigits 10 n)

/-- What was found, and the file to which the diagram was written. -/
def ofSummary (r : Report) (outputFile : Path) : View where
  table :=
    { header := ["Files", "Models", "Associations", "Edges", "Output"]
      rows :=
        [[count r.filesScanned, count r.models.length, count r.associations.length,
          count r.edges.length, outputFile]] }
  json := .object
    [("files_scanned", .number r.filesScanned), ("models", .number r.models.length),
      ("associations", .number r.associations.length), ("edges", .number r.edges.length),
      ("output_file", .string outputFile)]
  compact := "files=" ++ count r.filesScanned ++ " models=" ++ count r.models.length
    ++ " associations=" ++ count r.associations.length ++ " edges=" ++ count r.edges.length
    ++ " output=" ++ outputFile

end View

end SchemaDiagram
