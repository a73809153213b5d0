import SchemaDiagram.Schema.Field
import SchemaDiagram.Text.Nesting

/-!
# Attributes

The attribute block of a model definition is an object literal. Its entries are separated by the
commas outside brackets and string literals; an entry is a name, a colon and a value. The value is
either a type or an object whose own entries `type`, `allowNull` and `primaryKey` count, so that
what is nested deeper never reaches the field. Parts that are no entries are passed over.
-/

namespace SchemaDiagram.Source

open Text

/-- The text without the quote at its front, if there is one. -/
def dropQuote : List Char → List Char
  | c :: rest => if isQuote c then rest else c :: rest
  | [] => []

/-- The name of an entry, which may be quoted, and its trimmed value. -/
def entry? (part : List Char) : Option (List Char × List Char) := do
  let (name, rest) ← word? (dropQuote part)
  let value ← expectToken ':' (dropQuote rest)
  some (name, trim value)

/-- The entries of an object, from the text between its braces. -/
def entries (body : List Char) : List (List Char × List Char) :=
  (splitTopLevel body).filterMap entry?

/-- The text between a brace at the front and a brace at the end. -/
def betweenBraces? : List Char → Option (List Char)
  | '{' :: rest => if rest.getLast? = some '}' then some rest.dropLast else none
  | _ => none

/-- The name of the library object that holds the types. -/
def dataTypesName : List Char := ['D', 'a', 't', 'a', 'T', 'y', 'p', 'e', 's']

/-- The name of the library itself, through which the types can be reached as well. -/
def libraryName : List Char := ['S', 'e', 'q', 'u', 'e', 'l', 'i', 'z', 'e']

/-- The text after a name and the dot that follows it. -/
def afterMember (name text : List Char) : Option (List Char) := do
  let rest ← expectWord name text
  let rest ← expectToken '.' rest
  some (skipBlanks rest)

/-- The text after one name that holds types. -/
def afterHolder (text : List Char) : Option (List Char) :=
  (afterMember dataTypesName text).or (afterMember libraryName text)

/-- The places at which a type may be named, the most qualified reading of the text first. The
library's name can stand before the object that holds the types, and can also hold them itself. -/
def afterNamespace (text : List Char) : List (List Char) :=
  ((afterMember libraryName text).bind afterHolder).toList ++ (afterHolder text).toList

/-- The word that names a type. -/
def typeWord? (text : List Char) : Option (List Char) :=
  (afterNamespace text).findSome? fun rest ↦ (word? rest).map Prod.fst

/-- The text after the word `ARRAY` in any case. -/
def afterArrayWord (text : List Char) : Option (List Char) :=
  if (text.take 5).map Char.toUpper = ['A', 'R', 'R', 'A', 'Y'] then some (text.drop 5) else none

/-- The word that names the type of an array's elements: the first argument of the array type. -/
def elementWord? (text : List Char) : Option (List Char) :=
  (afterNamespace text).findSome? fun rest ↦ do
    let rest ← afterArrayWord rest
    let rest ← expectToken '(' rest
    typeWord? (skipBlanks rest)

/-- The type that a value names. -/
def readType (value : List Char) : FieldType :=
  match typeWord? value with
  | some word =>
    .ofTag (upper (String.ofList word)) ((elementWord? value).map String.ofList)
  | none => .unknown

/-- Takes one property of an attribute into account. -/
def applyProperty (f : Field) (property : List Char × List Char) : Field :=
  let (name, value) := property
  if name = "type".toList then { f with type := readType value }
  else if name = "allowNull".toList then { f with nullable := value = "true".toList }
  else if name = "primaryKey".toList then { f with primaryKey := value = "true".toList }
  else f

/-- The field that an entry describes. Of several properties of one name the last counts. -/
def readField (name value : List Char) : Field :=
  match betweenBraces? value with
  | some body => (entries body).foldl applyProperty { name := String.ofList name, type := .unknown }
  | none => { name := String.ofList name, type := readType value }

/-- The fields of an attribute block, which may stand in braces. -/
def readAttributes (block : List Char) : List Field :=
  (entries ((betweenBraces? (trim block)).getD block)).map fun (name, value) ↦
    readField name value

/-- The fields that an attribute block declares, in order. -/
def parseAttributes (block : String) : List Field :=
  readAttributes block.toList

end SchemaDiagram.Source
