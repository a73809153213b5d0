import SchemaDiagram.Text.Token

/-!
# Modifiers

The options of an association call name columns, an alias and a joining model. A modifier is read
at the leftmost place where its key starts a word and a colon and a value follow. The quotes around
a value need not be of one kind, and an empty value is no value.
-/

namespace SchemaDiagram.Source

open Text

/-- The value between two quotes. -/
def quotedValue? : List Char → Option (List Char)
  | [] => none
  | c :: rest =>
    if isQuote c then
      let value := rest.takeWhile fun d ↦ !isQuote d
      if value.isEmpty || (rest.dropWhile fun d ↦ !isQuote d).isEmpty then none else some value
    else none

/-- The text of the value that belongs to a key at the front. -/
def afterKey (key text : List Char) : Option (List Char) := do
  let rest ← expectWord key text
  let rest ← expectToken ':' rest
  some (skipBlanks rest)

/-- The leftmost quoted value of a key. -/
def quotedModifier? (key options : List Char) : Option (List Char) :=
  findAtWord (fun rest ↦ (afterKey key rest).bind quotedValue?) options

/-- The value of the property `name` of an object, read from behind its opening brace. The property
is sought up to the first closing brace. -/
def nameProperty? (body : List Char) : Option (List Char) :=
  findBefore (· == '}') (fun rest ↦ (afterKey ['n', 'a', 'm', 'e'] rest).bind quotedValue?) false body

/-- The name of a column: a quoted value, or the `name` of an object. -/
def columnName? : List Char → Option (List Char)
  | '{' :: body => nameProperty? body
  | text => quotedValue? text

/-- The column that refers to the other model. -/
def foreignKey? (options : List Char) : Option (List Char) :=
  findAtWord (fun rest ↦ (afterKey "foreignKey".toList rest).bind columnName?) options

/-- The joining model: a quoted value, or the last identifier of a dotted path. -/
def through? (options : List Char) : Option (List Char) :=
  findAtWord (fun rest ↦ (afterKey "through".toList rest).bind fun value ↦
    (quotedValue? value).or ((dottedPath? value).map Prod.fst)) options

end SchemaDiagram.Source
