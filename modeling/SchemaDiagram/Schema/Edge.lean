/-!
# Edges

One edge stands for all that is declared between two models. An edge without a cardinality can be
drawn, but nothing that is declared leads to one.
-/

namespace SchemaDiagram

/-- How many of one model go with how many of the other, left to right. -/
inductive Cardinality where
  /-- One of each. -/
  | oneToOne
  /-- One on the left, any number on the right. -/
  | oneToMany
  /-- Any number of each. -/
  | manyToMany
  deriving DecidableEq, Repr

namespace Cardinality

/-- The line of the diagram that stands for the cardinality. -/
def symbol : Cardinality → String
  | oneToOne => "||--||"
  | oneToMany => "||--o\x7b"
  | manyToMany => "\x7do--o\x7b"

/-- The cardinality in words, which is also the label of an edge without a name of its own. -/
def word : Cardinality → String
  | oneToOne => "one-to-one"
  | oneToMany => "one-to-many"
  | manyToMany => "many-to-many"

end Cardinality

/-- A relationship between two models. -/
structure Edge where
  /-- The model that is drawn on the left. -/
  left : String
  /-- The model that is drawn on the right. -/
  right : String
  /-- The cardinality, if the relationship is classified. -/
  cardinality : Option Cardinality
  /-- The label; an empty label is not drawn. -/
  label : Option String := none
  deriving DecidableEq, Repr

/-- The line symbol of an edge, empty for an unclassified one. -/
def Edge.symbol (e : Edge) : String := (e.cardinality.map Cardinality.symbol).getD ""

end SchemaDiagram
