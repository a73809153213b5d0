import SchemaDiagram.Diagram
import SchemaDiagram.Schema.Relationship
import SchemaDiagram.Source.Association
import SchemaDiagram.Source.Definition

/-!
# Reports

A report gathers what a list of source texts declares. Texts are taken in one at a time; the edges
are made from all associations together, at the end.
-/

namespace SchemaDiagram

/-- What the texts so far have declared. -/
structure Collection where
  /-- The number of texts. -/
  filesScanned : Nat := 0
  /-- The models, at most one for each text. -/
  models : List Model := []
  /-- The associations. -/
  associations : List Association := []
  deriving DecidableEq, Repr

/-- Takes in one more text. -/
def Collection.ingest (c : Collection) (text : String) : Collection where
  filesScanned := c.filesScanned + 1
  models := c.models ++ (Source.extractModel text).toList
  associations := c.associations ++ Source.extractAssociations (Text.stripComments text)

/-- All that was found in a list of texts. -/
structure Report where
  /-- The number of texts. -/
  filesScanned : Nat
  /-- The models, in the order of the texts. -/
  models : List Model
  /-- The associations, in the order of the texts and of their calls. -/
  associations : List Association
  /-- One edge for each pair of associated models. -/
  edges : List Edge
  deriving DecidableEq, Repr

/-- Ends the collection. -/
def Collection.report (c : Collection) : Report where
  filesScanned := c.filesScanned
  models := c.models
  associations := c.associations
  edges := edges c.associations

/-- The report on a list of texts. -/
def Report.ofTexts (texts : List String) : Report :=
  (texts.foldl Collection.ingest {}).report

/-- The diagram of a report. -/
def Report.diagram (r : Report) : String := Diagram.render r.models r.edges

end SchemaDiagram
