import SchemaDiagram.Schema.Edge
import SchemaDiagram.Schema.Model

/-!
# Diagrams

The text of an entity-relationship diagram: a header line, a block for each model and a line for
each edge, the blocks and the edges set apart by empty lines. An edge may lead to a model that has
no block.
-/

namespace SchemaDiagram.Diagram

/-- The line of a field in its model's block. -/
def fieldLine (f : Field) : String :=
  f.type.tag ++ " " ++ f.name ++ (if f.nullable then "[nullable]" else "")
    ++ (if f.primaryKey then " PK" else "") ++ (if f.foreignKey then " FK" else "")

/-- The lines of a model's block. -/
def modelLines (m : Model) : List String :=
  (m.name ++ " \x7b") :: m.fields.map (fun f ↦ "    " ++ fieldLine f) ++ ["\x7d"]

/-- The line of an edge. An empty label is left out. -/
def edgeLine (e : Edge) : String :=
  e.left ++ " " ++ e.symbol ++ " " ++ e.right ++
    match e.label with
    | some label => if label = "" then "" else " : \"" ++ label ++ "\""
    | none => ""

/-- The groups of lines between which empty lines stand. -/
def sections (models : List Model) (edges : List Edge) : List (List String) :=
  models.map modelLines ++ (if edges.isEmpty then [] else [edges.map edgeLine])

/-- The lines of a diagram. -/
def lines (models : List Model) (edges : List Edge) : List String :=
  "erDiagram" :: List.intercalate [""] (sections models edges)

/-- The text of a diagram; every line is ended by a line feed. -/
def render (models : List Model) (edges : List Edge) : String :=
  String.join ((lines models edges).map (· ++ "\n"))

end SchemaDiagram.Diagram
