import SchemaDiagram.Command.Run
import SchemaDiagram.Proofs.Json.RoundTrip
import SchemaDiagram.Proofs.Schema.Json

/-!
# What is shown as JSON

What an inspection shows as JSON can be read again, and nothing is lost on the way: a standard
reader finds the value that was printed, whatever characters are in its texts
(`parse?_shown`), and the members of that value tell apart what is not set from what is empty. The
line feed behind the value is white space to the reader.
-/

namespace SchemaDiagram

variable {options : GlobalOptions} {colour : Bool}

/-- What is written to the standard output where a view is shown. -/
def View.shown (v : View) (options : GlobalOptions) (colour : Bool) : String :=
  (options.manner colour).output (.data (v.text options.format options.plain))

/-- An inspection shows the view of its subject and nothing else. -/
theorem output_outcome_runInspect {disk : Disk} {project : Project} {selection : Selection}
    {s : Scan} (h : scan disk project selection = .ok s) (subject : Subject) :
    ((runInspect disk project options subject selection).outcome (options.manner colour)).output =
      (View.ofReport subject s.report).shown options colour := by
  have hresult : runInspect disk project options subject selection =
      { notices :=
          [scanDetail project s,
            .data ((View.ofReport subject s.report).text options.format options.plain)]
        disk } := by
    -- the equations of `runInspect` are slow to make, for they reduce the scan
    delta runInspect
    rw [h]
  rw [hresult]
  simp [Result.outcome, scanDetail, View.shown, Terminal.Manner.output, String.join]

/-- As JSON, a view is read back as its value. -/
theorem View.parse?_shown (v : View) (hformat : options.format = .json)
    (hquiet : options.quiet = false) :
    Json.parse? (v.shown options colour) = some v.json := by
  have hshown : v.shown options colour = v.json.print ++ "\n" := by
    simp [shown, text, hformat, hquiet, GlobalOptions.manner, Terminal.Manner.output]
  rw [hshown]
  exact Json.parse?_print_append v.json (List.all_eq_true.1 (by decide))

/-- **JSON loses nothing.** Associations and edges are read back as they were, and models as they
are shown: their names, and the type tags, names and flags of their fields in order. -/
theorem readBack_shown_json (hformat : options.format = .json) (hquiet : options.quiet = false)
    (colour : Bool) (models : List Model) (associations : List Association) (edges : List Edge) :
    (Json.parse? ((View.ofAssociations associations).shown options colour)).bind
        (Json.listOf? Association.ofJson?) = some associations ∧
      (Json.parse? ((View.ofEdges edges).shown options colour)).bind
        (Json.listOf? Edge.ofJson?) = some edges ∧
      (Json.parse? ((View.ofModels models).shown options colour)).bind
        (Json.listOf? Model.shownOfJson?) = some (models.map Model.shown) := by
  simp only [View.parse?_shown _ hformat hquiet, Option.bind_some]
  refine ⟨?_, ?_, Json.listOf?_map Model.shownOfJson?_toJson models⟩
  · have h := Json.listOf?_map Association.ofJson?_toJson associations
    rwa [List.map_id'] at h
  · have h := Json.listOf?_map Edge.ofJson?_toJson edges
    rwa [List.map_id'] at h

/-- A declaration with an empty name and one with none. Their texts have characters in them that
JSON escapes. -/
def awkwardAssociations : List Association :=
  [{ source := "Us\"er", target := "Po\\st", kind := .hasMany, aliasName := some "",
      foreignKey := some "a\nb", through := some "\x01\x7fé😀" },
    { source := "Us\"er", target := "Po\\st", kind := .hasMany }]

/-- An edge that is not classified and has an empty label, and one that is classified and has
none. -/
def awkwardEdges : List Edge :=
  [{ left := "null", right := "\t", cardinality := none, label := some "" },
    { left := "", right := "\"", cardinality := some .manyToMany }]

/-- A model whose fields differ in all their flags. -/
def awkwardModels : List Model :=
  [{ name := "\x7b\"name\": 1\x7d"
     fields :=
      [{ name := "teamId", type := .array (some "TEXT"), nullable := true },
        { name := "id", type := .unknown, primaryKey := true }] }]

theorem readBack_shown_json_awkward :
    ({ format := .json } : GlobalOptions).format = .json ∧
      ({ format := .json } : GlobalOptions).quiet = false ∧
      (Json.parse? ((View.ofAssociations awkwardAssociations).shown { format := .json } true)).bind
        (Json.listOf? Association.ofJson?) = some awkwardAssociations ∧
      (Json.parse? ((View.ofEdges awkwardEdges).shown { format := .json } true)).bind
        (Json.listOf? Edge.ofJson?) = some awkwardEdges ∧
      (Json.parse? ((View.ofModels awkwardModels).shown { format := .json } true)).bind
        (Json.listOf? Model.shownOfJson?) =
          some [("\x7b\"name\": 1\x7d", [("ARRAY<TEXT>", "teamId", true, false, true),
            ("UNKNOWN", "id", false, true, false)])] :=
  ⟨rfl, rfl, readBack_shown_json rfl rfl true awkwardModels awkwardAssociations awkwardEdges⟩

end SchemaDiagram
