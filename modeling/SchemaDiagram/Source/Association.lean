import SchemaDiagram.Source.AssociationCall
import SchemaDiagram.Source.ClassHeader
import SchemaDiagram.Source.Modifier

/-!
# Declared associations

Every association call of a text is a declaration. The text is expected to be without comments.
Nothing is merged here: a repeated call is a repeated declaration.
-/

namespace SchemaDiagram.Source

open Text

/-- How a model is called within its own class. -/
def selfName : List Char := ['t', 'h', 'i', 's']

/-- The model that a call at some place is made on. Outside every class, `this` is kept. -/
def resolveReceiver (headers : List (Nat × List Char)) (position : Nat) (receiver : List Char) :
    List Char :=
  if receiver = selfName then (enclosingClass headers position).getD receiver else receiver

/-- The association that a call declares. -/
def declaration (headers : List (Nat × List Char)) (position : Nat) (call : AssociationCall) :
    Association where
  source := String.ofList (resolveReceiver headers position call.receiver)
  target := String.ofList call.target
  kind := call.kind
  foreignKey := (foreignKey? call.options).map String.ofList
  sourceKey := (quotedModifier? "sourceKey".toList call.options).map String.ofList
  targetKey := (quotedModifier? "targetKey".toList call.options).map String.ofList
  aliasName := (quotedModifier? "as".toList call.options).map String.ofList
  through := (through? call.options).map String.ofList

/-- The associations that a text declares, in order. -/
def findAssociations (text : List Char) : List Association :=
  let headers := classHeaders 0 false text
  (associationCalls 0 text).map fun (position, call) ↦ declaration headers position call

/-- The associations that a text without comments declares, in the order of their calls. -/
def extractAssociations (text : String) : List Association :=
  findAssociations text.toList

end SchemaDiagram.Source
