/-!
# Associations

An association is declared in one direction, from a source model to a target model, by one of
four kinds of call. Two declarations speak of the same relationship if they name the same two
models, in either direction; `Pair` is that unordered pair.
-/

namespace SchemaDiagram

/-- The kinds of association. -/
inductive AssociationKind where
  /-- The source has any number of the target. -/
  | hasMany
  /-- The source belongs to one target. -/
  | belongsTo
  /-- The source has one of the target. -/
  | hasOne
  /-- Source and target are joined through a third model. -/
  | belongsToMany
  deriving DecidableEq, Repr

/-- A keyword that names no kind of association. -/
structure UnknownAssociationKind where
  /-- The text that stood for the kind. -/
  text : String
  deriving DecidableEq, Repr

/-- The wording of the error. -/
def UnknownAssociationKind.message (e : UnknownAssociationKind) : String :=
  "unknown association kind: " ++ e.text

namespace AssociationKind

/-- Every kind. -/
def all : List AssociationKind := [hasMany, belongsTo, hasOne, belongsToMany]

/-- The method name that declares the kind. -/
def keyword : AssociationKind → String
  | hasMany => "hasMany"
  | belongsTo => "belongsTo"
  | hasOne => "hasOne"
  | belongsToMany => "belongsToMany"

/-- The kind with the given keyword. -/
def ofKeyword (text : String) : Except UnknownAssociationKind AssociationKind :=
  match all.find? fun kind ↦ kind.keyword == text with
  | some kind => .ok kind
  | none => .error ⟨text⟩

theorem mem_all (kind : AssociationKind) : kind ∈ all := by
  cases kind <;> simp [all]

/-- Reading a keyword back gives its kind. -/
theorem ofKeyword_keyword (kind : AssociationKind) : ofKeyword kind.keyword = .ok kind := by
  cases kind <;> rfl

end AssociationKind

/-- Two model names in their order by code points, so that each unordered pair has one form. -/
structure Pair where
  /-- The smaller name. -/
  low : String
  /-- The greater name; equal to `low` for a model associated with itself. -/
  high : String
  low_le_high : low ≤ high
  deriving DecidableEq, Repr

/-- The pair of two names, given in either order. -/
def Pair.of (a b : String) : Pair :=
  if h : a ≤ b then ⟨a, b, h⟩ else ⟨b, a, (String.le_total a b).resolve_left h⟩

/-- A declared association. -/
structure Association where
  /-- The model on which the association is declared. -/
  source : String
  /-- The model that it leads to. -/
  target : String
  /-- The kind of the association. -/
  kind : AssociationKind
  /-- The column that refers to the other model. -/
  foreignKey : Option String := none
  /-- The column of the source that is referred to. -/
  sourceKey : Option String := none
  /-- The column of the target that is referred to. -/
  targetKey : Option String := none
  /-- The name that the association is given. -/
  aliasName : Option String := none
  /-- The model that joins the two. -/
  through : Option String := none
  deriving DecidableEq, Repr

/-- The unordered pair of models that an association connects. -/
def Association.pair (a : Association) : Pair := Pair.of a.source a.target

end SchemaDiagram
