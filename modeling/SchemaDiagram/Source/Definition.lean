import SchemaDiagram.Schema.Model
import SchemaDiagram.Source.Attribute
import SchemaDiagram.Text.Comment

/-!
# Model definitions

A model is defined by a call of `sequelize.define` with its name and its attribute block; type
arguments may stand before the parenthesis. The first call of a text that can be read is its
model, and nothing that follows the attribute block matters.
-/

namespace SchemaDiagram.Source

open Text

/-- The text after the angle bracket that closes the one just opened; `inner` counts the brackets
opened since. -/
def closeAngle (inner : Nat) : List Char → Option (List Char)
  | [] => none
  | c :: rest =>
    if c = '<' then closeAngle (inner + 1) rest
    else if c = '>' then
      match inner with
      | 0 => some rest
      | inner + 1 => closeAngle inner rest
    else closeAngle inner rest

/-- The text after the type arguments at its front; without any, the text itself. -/
def skipTypeArguments : List Char → Option (List Char)
  | '<' :: rest => closeAngle 0 rest
  | text => some text

/-- The name between two quotes of one kind, which is not empty, and the text after it. Nothing is
escaped in a name. -/
def quotedName? : List Char → Option (List Char × List Char)
  | [] => none
  | quote :: rest =>
    if isQuote quote then
      let name := rest.takeWhile (· != quote)
      match rest.dropWhile (· != quote) with
      | _ :: after => if name.isEmpty then none else some (name, after)
      | [] => none
    else none

/-- The object on which models are defined. -/
def connectionName : List Char := ['s', 'e', 'q', 'u', 'e', 'l', 'i', 'z', 'e']

/-- The method that defines a model. -/
def defineName : List Char := ['d', 'e', 'f', 'i', 'n', 'e']

/-- The text after the name of the defining method. -/
def afterDefine (text : List Char) : Option (List Char) := do
  let rest ← expectWord connectionName text
  let rest ← expectToken '.' rest
  let rest ← expectWord defineName (skipBlanks rest)
  if startsWord rest then none else some rest

/-- The model that the arguments of a defining call describe. -/
def readDefinition (text : List Char) : Option Model := do
  let rest ← skipTypeArguments (skipBlanks text)
  let rest ← expectToken '(' rest
  let (name, rest) ← quotedName? (skipBlanks rest)
  let rest ← expectToken ',' rest
  let rest := skipBlanks rest
  if rest.head? = some '{' then
    let (block, _) ← block? rest
    some { name := String.ofList name, fields := readAttributes block }
  else none

/-- The model of the first readable definition in a text without comments. -/
def findModel (text : List Char) : Option Model :=
  findAtWord (fun rest ↦ (afterDefine rest).bind readDefinition) text

/-- The model that a source text defines, if it defines one. -/
def extractModel (text : String) : Option Model :=
  findModel (withoutComments text.toList)

end SchemaDiagram.Source
