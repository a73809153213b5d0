import SchemaDiagram.Text.UpperCase

/-!
# Fields

A field of a model: its name, its type tag, and whether it may be null and is the primary key.
Whether it is a foreign key is not stored; it follows from the name and the primary-key flag.
-/

namespace SchemaDiagram

/-- The type of a field, as far as its annotation tells. -/
inductive FieldType where
  /-- A primitive type, by its upper-case tag. -/
  | scalar (tag : String)
  /-- An enumeration; its values are not kept. -/
  | enum
  /-- An array, with the tag of its elements where that could be read. -/
  | array (element : Option String)
  /-- No type annotation was recognised. -/
  | unknown
  deriving DecidableEq, Repr

namespace FieldType

/-- The type for an upper-case tag. The element counts for arrays only. -/
def ofTag (tag : String) (element : Option String) : FieldType :=
  if tag = "ENUM" then .enum
  else if tag = "ARRAY" then .array (element.map Text.upper)
  else .scalar tag

/-- The tag that is shown for a type. -/
def tag : FieldType → String
  | scalar tag => tag
  | enum => "ENUM"
  | array (some element) => "ARRAY<" ++ element ++ ">"
  | array none => "ARRAY"
  | unknown => "UNKNOWN"

end FieldType

/-- One attribute of a model. -/
structure Field where
  /-- The name of the attribute. -/
  name : String
  /-- The declared type. -/
  type : FieldType
  /-- Whether the attribute may be null. -/
  nullable : Bool := false
  /-- Whether the attribute is the primary key. -/
  primaryKey : Bool := false
  deriving DecidableEq, Repr

/-- Whether a name ends in the letters `id`, in either case. Letters of other scripts that look or
upper-case alike do not count. -/
def endsInId (name : String) : Bool :=
  match name.toList.reverse with
  | d :: i :: _ => (i == 'i' || i == 'I') && (d == 'd' || d == 'D')
  | _ => false

/-- Foreign keys are recognised by their name; a primary key is never one. -/
def Field.foreignKey (f : Field) : Bool := !f.primaryKey && endsInId f.name

end SchemaDiagram
