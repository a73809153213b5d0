/-!
# JSON values

The values in which extracted data is shown to other programs. Numbers are counts, and the members
of an object keep their order.
-/

namespace SchemaDiagram

/-- A JSON value. -/
inductive Json where
  /-- The null value. -/
  | null
  /-- A truth value. -/
  | bool (value : Bool)
  /-- A count. -/
  | number (value : Nat)
  /-- A text. -/
  | string (value : String)
  /-- A list of values. -/
  | array (items : List Json)
  /-- Named values, in order. -/
  | object (members : List (String × Json))
  deriving Repr

namespace Json

/-- A member that is left out where there is no value. -/
def member? (name : String) : Option String → List (String × Json)
  | some value => [(name, .string value)]
  | none => []

/-- A member that is left out where it is false. -/
def flag (name : String) (value : Bool) : List (String × Json) :=
  if value then [(name, .bool true)] else []

end Json

end SchemaDiagram
