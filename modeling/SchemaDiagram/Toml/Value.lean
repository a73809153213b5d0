/-!
# TOML values

The values of a TOML document. Numbers with a fraction or an exponent and dates are kept as they
are written, since no setting has them.
-/

namespace SchemaDiagram.Toml

/-- A TOML value. -/
inductive Value where
  /-- A text. -/
  | string (text : String)
  /-- A whole number of 64 bits. -/
  | integer (value : Int)
  /-- A number with a fraction or an exponent, or a special number. -/
  | float (text : String)
  /-- A truth value. -/
  | boolean (value : Bool)
  /-- A date, a time, or both. -/
  | dateTime (text : String)
  /-- A list of values. -/
  | array (items : List Value)
  /-- Named values, in order. -/
  | table (entries : List (String × Value))
  deriving Repr

end SchemaDiagram.Toml
