import SchemaDiagram.Schema.Association
import SchemaDiagram.Schema.Edge

/-!
# Relationships

Associations are declared in one direction each and often more than once. All that is declared
between two models makes up one relationship, and a relationship is drawn as one edge. Its
cardinality comes from the first rule that applies:

| rule | declared                         | cardinality  | left              |
|------|----------------------------------|--------------|-------------------|
| 1    | `belongsToMany`                  | many-to-many | the smaller name  |
| 2    | `hasMany`, answered by `belongsTo` | one-to-many | the `hasMany` side |
| 3    | `hasOne`, answered by `belongsTo` | one-to-one   | the `hasOne` side |
| 4    | `hasMany`                        | one-to-many  | the `hasMany` side |
| 5    | `hasOne`                         | one-to-one   | the `hasOne` side |
| 6    | `belongsTo`                      | one-to-many  | the target        |

Where a rule applies in both directions, the smaller name is on the left. The names that the
associations are given make up the label; without any, the cardinality is the label.
-/

namespace SchemaDiagram

/-- All that is declared between two models. A model's associations with itself count as declared
by the smaller name. -/
structure Relationship where
  /-- The two models. -/
  pair : Pair
  /-- The kinds declared on the smaller name, in order. -/
  forward : List AssociationKind := []
  /-- The kinds declared on the greater name, in order. -/
  backward : List AssociationKind := []
  /-- The distinct names that were given, in the order of their first use. -/
  aliases : List String := []
  deriving DecidableEq, Repr

/-- A member of a pair. -/
inductive Side where
  /-- The smaller name. -/
  | low
  /-- The greater name. -/
  | high
  deriving DecidableEq, Repr

namespace Relationship

/-- Adds a name unless it is there already. -/
def addAlias (aliases : List String) : Option String → List String
  | some name => if name ∈ aliases then aliases else aliases ++ [name]
  | none => aliases

/-- Adds a declaration between the two models. -/
def add (r : Relationship) (a : Association) : Relationship :=
  if a.source = r.pair.low then
    { r with forward := r.forward ++ [a.kind], aliases := addAlias r.aliases a.aliasName }
  else
    { r with backward := r.backward ++ [a.kind], aliases := addAlias r.aliases a.aliasName }

/-- The side on which a kind is declared, the smaller name first. -/
def declaredOn (r : Relationship) (kind : AssociationKind) : Option Side :=
  if kind ∈ r.forward then some .low
  else if kind ∈ r.backward then some .high
  else none

/-- The side on which a kind is declared while the other side declares to belong to it. -/
def answeredOn (r : Relationship) (kind : AssociationKind) : Option Side :=
  if kind ∈ r.forward ∧ .belongsTo ∈ r.backward then some .low
  else if kind ∈ r.backward ∧ .belongsTo ∈ r.forward then some .high
  else none

/-- The side that the other side belongs to. -/
def ownedFrom (r : Relationship) : Option Side :=
  if .belongsTo ∈ r.backward then some .low
  else if .belongsTo ∈ r.forward then some .high
  else none

/-- The cardinality and the side that is drawn on the left, by the first rule that applies. -/
def shape? (r : Relationship) : Option (Cardinality × Side) :=
  ((r.declaredOn .belongsToMany).map fun _ ↦ (.manyToMany, .low))
  |>.or ((r.answeredOn .hasMany).map (.oneToMany, ·))
  |>.or ((r.answeredOn .hasOne).map (.oneToOne, ·))
  |>.or ((r.declaredOn .hasMany).map (.oneToMany, ·))
  |>.or ((r.declaredOn .hasOne).map (.oneToOne, ·))
  |>.or (r.ownedFrom.map (.oneToMany, ·))

/-- The label: the names that were given, or the cardinality in words. -/
def label? (r : Relationship) : Option String :=
  if r.aliases.isEmpty then r.shape?.map fun shape ↦ shape.1.word
  else some (String.intercalate ", " r.aliases)

/-- The edge that stands for a relationship. -/
def edge (r : Relationship) : Edge :=
  let left := if r.shape?.map Prod.snd = some .high then r.pair.high else r.pair.low
  let right := if r.shape?.map Prod.snd = some .high then r.pair.low else r.pair.high
  { left, right, cardinality := r.shape?.map Prod.fst, label := r.label? }

end Relationship

/-- Adds a declaration to the relationship of its two models, which is put at the end if it is
new. -/
def insertDeclaration : List Relationship → Association → List Relationship
  | [], a => [Relationship.add { pair := a.pair } a]
  | r :: others, a =>
    if r.pair = a.pair then r.add a :: others else r :: insertDeclaration others a

/-- The relationships that associations declare, in the order in which their pairs first occur. -/
def relationships (associations : List Association) : List Relationship :=
  associations.foldl insertDeclaration []

/-- The edges of a diagram: one for each pair of models between which something is declared.
Identical edges are drawn once. -/
def edges (associations : List Association) : List Edge :=
  ((relationships associations).map Relationship.edge).eraseDups

end SchemaDiagram
