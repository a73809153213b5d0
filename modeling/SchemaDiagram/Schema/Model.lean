import SchemaDiagram.Schema.Field

/-!
# Models
-/

namespace SchemaDiagram

/-- A model: its name and its fields in the order of their declaration. -/
structure Model where
  /-- The name under which the model is defined. -/
  name : String
  /-- The fields, in order. -/
  fields : List Field
  deriving DecidableEq, Repr

end SchemaDiagram
