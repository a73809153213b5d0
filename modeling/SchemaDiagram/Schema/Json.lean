import SchemaDiagram.Json.Value
import SchemaDiagram.Schema.Association
import SchemaDiagram.Schema.Edge
import SchemaDiagram.Schema.Model

/-!
# The schema as JSON

Options that are not set and flags that are false are left out; only the cardinality of an edge is
always there.
-/

namespace SchemaDiagram

/-- A field as JSON. -/
def Field.toJson (f : Field) : Json :=
  .object ([("name", .string f.name), ("type", .string f.type.tag)]
    ++ Json.flag "nullable" f.nullable ++ Json.flag "primary_key" f.primaryKey
    ++ Json.flag "foreign_key" f.foreignKey)

/-- A model as JSON. -/
def Model.toJson (m : Model) : Json :=
  .object [("name", .string m.name), ("fields", .array (m.fields.map Field.toJson))]

/-- An association as JSON. -/
def Association.toJson (a : Association) : Json :=
  .object ([("source", .string a.source), ("target", .string a.target),
      ("kind", .string a.kind.keyword)]
    ++ Json.member? "foreign_key" a.foreignKey ++ Json.member? "source_key" a.sourceKey
    ++ Json.member? "target_key" a.targetKey ++ Json.member? "as" a.aliasName
    ++ Json.member? "through" a.through)

/-- An edge as JSON. -/
def Edge.toJson (e : Edge) : Json :=
  .object ([("left", .string e.left), ("right", .string e.right),
      ("cardinality", (e.cardinality.map fun c ↦ .string c.word).getD .null)]
    ++ Json.member? "label" e.label)

end SchemaDiagram
