import SchemaDiagram.Proofs.Diagram
import SchemaDiagram.Schema.Json

/-!
# Reading the schema from JSON

Associations, edges and models are read from the members of an object by their names. A member that
is absent is an option that is not set, or a flag that is false. So whatever was left out is there
again: associations and edges are read back as they were (`Association.ofJson?_toJson`,
`Edge.ofJson?_toJson`), and models as far as they are shown, for a type is shown by its tag
(`Model.shownOfJson?_toJson`).
-/

namespace SchemaDiagram

namespace Json

/-! ### Values and members -/

/-- The text that a value is. -/
def text? : Json → Option String
  | .string text => some text
  | _ => none

/-- The members of an object. -/
def members? : Json → Option (List (String × Json))
  | .object members => some members
  | _ => none

section

variable {α : Type} (read : Json → Option α)

/-- The items of a list, each of which is read in the same way. -/
def listOf? : Json → Option (List α)
  | .array items => items.mapM read
  | _ => none

/-- The value of an option, which is not set if its member is absent or null. -/
def optional? : Option Json → Option (Option α)
  | none | some .null => some none
  | some value => (read value).map some

end

/-- The value of a flag, which is false if its member is absent. -/
def flag? : Option Json → Option Bool
  | none => some false
  | some (.bool value) => some value
  | some _ => none

/-- Items that are all read back make a list that is read back. -/
theorem listOf?_map {α β : Type} {read : Json → Option α} {write : β → Json} {view : β → α}
    (h : ∀ b, read (write b) = some (view b)) (items : List β) :
    listOf? read (.array (items.map write)) = some (items.map view) := by
  have hread : read ∘ write = fun b ↦ some (view b) := funext h
  rw [listOf?, List.mapM_map, hread]
  exact List.mapM_pure

/-- The member of an option is found under its name, if the option is set. -/
@[simp]
theorem lookup_member? (key name : String) (value : Option String) :
    (member? name value).lookup key = if key = name then value.map .string else none := by
  cases value with
  | none => simp [member?]
  | some text =>
    by_cases h : key = name
    · simp [member?, h]
    · simp [member?, List.lookup_cons, beq_eq_false_iff_ne.2 h, h]

/-- The member of a flag is found under its name, if the flag is true. -/
@[simp]
theorem lookup_flag (key name : String) (value : Bool) :
    (flag name value).lookup key = if key = name ∧ value then some (.bool true) else none := by
  cases value with
  | false => simp [flag]
  | true =>
    by_cases h : key = name
    · simp [flag, h]
    · simp [flag, List.lookup_cons, beq_eq_false_iff_ne.2 h, h]

@[simp]
theorem text?_string (text : String) : text? (.string text) = some text := rfl

@[simp]
theorem members?_object (members : List (String × Json)) :
    members? (.object members) = some members := rfl

@[simp]
theorem optional?_map_string (value : Option String) :
    optional? text? (value.map .string) = some value := by
  cases value <;> rfl

@[simp]
theorem flag?_ite (value : Bool) :
    flag? (if value then some (.bool true) else none) = some value := by
  cases value <;> rfl

end Json

/-! ### Associations -/

/-- The kind with a keyword. -/
def AssociationKind.ofJson? (value : Json) : Option AssociationKind :=
  value.text?.bind fun text ↦ (ofKeyword text).toOption

/-- An association, from its members. -/
def Association.ofJson? (value : Json) : Option Association := do
  let members ← value.members?
  return {
    source := ← (← members.lookup "source").text?
    target := ← (← members.lookup "target").text?
    kind := ← AssociationKind.ofJson? (← members.lookup "kind")
    foreignKey := ← Json.optional? Json.text? (members.lookup "foreign_key")
    sourceKey := ← Json.optional? Json.text? (members.lookup "source_key")
    targetKey := ← Json.optional? Json.text? (members.lookup "target_key")
    aliasName := ← Json.optional? Json.text? (members.lookup "as")
    through := ← Json.optional? Json.text? (members.lookup "through") }

@[simp]
theorem AssociationKind.ofJson?_string_keyword (kind : AssociationKind) :
    ofJson? (.string kind.keyword) = some kind := by
  simp [ofJson?, ofKeyword_keyword, Except.toOption]

/-- An association is read back as it was. -/
theorem Association.ofJson?_toJson (a : Association) : ofJson? a.toJson = some a := by
  simp [ofJson?, toJson, List.lookup_append, List.lookup_cons]

/-! ### Edges -/

/-- Every cardinality. -/
def Cardinality.all : List Cardinality := [oneToOne, oneToMany, manyToMany]

/-- The cardinality in the given words. -/
def Cardinality.ofJson? (value : Json) : Option Cardinality :=
  value.text?.bind fun text ↦ all.find? fun cardinality ↦ cardinality.word == text

/-- An edge, from its members. -/
def Edge.ofJson? (value : Json) : Option Edge := do
  let members ← value.members?
  return {
    left := ← (← members.lookup "left").text?
    right := ← (← members.lookup "right").text?
    cardinality := ← Json.optional? Cardinality.ofJson? (members.lookup "cardinality")
    label := ← Json.optional? Json.text? (members.lookup "label") }

/-- A cardinality is read back from its words, and the lack of one from the null value. -/
@[simp]
theorem Cardinality.optional?_ofJson? (cardinality : Option Cardinality) :
    Json.optional? ofJson? (some ((cardinality.map fun c ↦ .string c.word).getD .null)) =
      some cardinality := by
  rcases cardinality with _ | cardinality
  · rfl
  · cases cardinality <;> rfl

/-- An edge is read back as it was. -/
theorem Edge.ofJson?_toJson (e : Edge) : ofJson? e.toJson = some e := by
  simp [ofJson?, toJson, List.lookup_cons]

/-! ### Models -/

/-- What is shown of a field, from its members. -/
def Field.shownOfJson? (value : Json) : Option (String × String × Bool × Bool × Bool) := do
  let members ← value.members?
  return (← (← members.lookup "type").text?, ← (← members.lookup "name").text?,
    ← Json.flag? (members.lookup "nullable"), ← Json.flag? (members.lookup "primary_key"),
    ← Json.flag? (members.lookup "foreign_key"))

/-- What is shown of a model, from its members. -/
def Model.shownOfJson? (value : Json) :
    Option (String × List (String × String × Bool × Bool × Bool)) := do
  let members ← value.members?
  return (← (← members.lookup "name").text?,
    ← Json.listOf? Field.shownOfJson? (← members.lookup "fields"))

theorem Field.shownOfJson?_toJson (f : Field) : shownOfJson? f.toJson = some f.shown := by
  simp [shownOfJson?, toJson, shown, List.lookup_append, List.lookup_cons]

/-- All that is shown of a model is read back. -/
theorem Model.shownOfJson?_toJson (m : Model) : shownOfJson? m.toJson = some m.shown := by
  simp [shownOfJson?, toJson, shown, List.lookup_cons, Json.listOf?_map Field.shownOfJson?_toJson]

end SchemaDiagram
