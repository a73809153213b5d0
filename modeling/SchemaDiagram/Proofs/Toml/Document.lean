import Mathlib.Data.List.Nodup
import SchemaDiagram.Proofs.Toml.Reader
import SchemaDiagram.Toml.Document

/-!
# Documents of tables

A document in which tables with plain names follow each other, each with its assignments, is read as
these tables in order (`parse?_tables`). A header adds an empty table (`addLine_header`), and an
assignment adds to the last one (`addLine_assign`).
-/

namespace SchemaDiagram.Toml

/-- A table with values only. -/
structure FlatTable where
  /-- Its name. -/
  name : String
  /-- Its entries, in order. -/
  entries : List (String × Value)

namespace FlatTable

/-- The lines that make the table. -/
def lines (t : FlatTable) : List Line :=
  .header [t.name] :: t.entries.map fun entry ↦ .assign [entry.1] entry.2

/-- The table as one that is being built. -/
def toNode (t : FlatTable) : String × Node :=
  (t.name, .table .header (t.entries.map fun entry ↦ (entry.1, .value entry.2)))

/-- The table as a value. -/
def toValue (t : FlatTable) : String × Value := (t.name, .table t.entries)

end FlatTable

variable {root entries : Entries} {name key : String}

theorem lookup_eq_none_of_not_mem (h : name ∉ root.map Prod.fst) : root.lookup name = none := by
  refine List.lookup_eq_none_iff.2 fun entry hentry ↦ ?_
  have hne : name ≠ entry.1 := by
    rintro rfl
    exact h (List.mem_map_of_mem hentry)
  simpa using hne

theorem lookup_append_self (h : root.lookup name = none) (node : Node) :
    (root ++ [(name, node)]).lookup name = some node := by
  rw [List.lookup_append, h]
  simp

theorem set_append_self (h : root.lookup name = none) (old node : Node) :
    Entries.set name node (root ++ [(name, old)]) = root ++ [(name, node)] := by
  induction root with
  | nil => simp [Entries.set]
  | cons entry root ih =>
    obtain ⟨other, first⟩ := entry
    by_cases hname : name = other
    · subst hname
      simp at h
    · rw [List.lookup_cons, beq_false_of_ne hname] at h
      rw [List.cons_append, Entries.set, if_neg (Ne.symm hname), ih h, List.cons_append]

/-- A header adds a table without entries. -/
theorem addLine_header (h : root.lookup name = none) (current : List String) :
    Document.addLine { root, current } (.header [name]) =
      some { root := root ++ [(name, .table .header [])], current := [name] } := by
  simp [Document.addLine, Document.openAt, Document.openTable, Entries.change, h]

/-- An assignment adds a value to the last table. -/
theorem addLine_assign (hname : root.lookup name = none) (hkey : entries.lookup key = none)
    (value : Value) :
    Document.addLine { root := root ++ [(name, .table .header entries)], current := [name] }
        (.assign [key] value) =
      some { root := root ++ [(name, .table .header (entries ++ [(key, .value value)]))],
             current := [name] } := by
  have hassign : entries.assign [key] value .header = some (entries ++ [(key, .value value)]) := by
    simp [Entries.assign, Entries.change, hkey]
  simp [Document.addLine, Entries.change, lookup_append_self hname, set_append_self hname, hassign]

/-- The assignments of a table fill it in their order. -/
theorem foldlM_assign (hname : root.lookup name = none) {added : List (String × Value)}
    (hnodup : (entries.map Prod.fst ++ added.map Prod.fst).Nodup) :
    (added.map fun entry ↦ Line.assign [entry.1] entry.2).foldlM Document.addLine
        { root := root ++ [(name, .table .header entries)], current := [name] } =
      some { root := root ++ [(name, .table .header
               (entries ++ added.map fun entry ↦ (entry.1, .value entry.2)))],
             current := [name] } := by
  induction added generalizing entries with
  | nil => simp
  | cons entry added ih =>
    obtain ⟨key, value⟩ := entry
    have hkey : entries.lookup key = none := lookup_eq_none_of_not_mem fun hmem ↦
      List.disjoint_of_nodup_append hnodup hmem List.mem_cons_self
    rw [List.map_cons, List.foldlM_cons, addLine_assign hname hkey, Option.bind_eq_bind,
      Option.bind_some, ih (by simpa using hnodup)]
    simp

/-- Tables are added one behind the other. -/
theorem exists_foldlM_tables {tables : List FlatTable}
    (hnodup : (root.map Prod.fst ++ tables.map FlatTable.name).Nodup)
    (hentries : ∀ t ∈ tables, (t.entries.map Prod.fst).Nodup) (current : List String) :
    ∃ d : Document, (tables.flatMap FlatTable.lines).foldlM Document.addLine { root, current } =
      some d ∧ d.root = root ++ tables.map FlatTable.toNode := by
  induction tables generalizing root current with
  | nil => exact ⟨_, rfl, by simp⟩
  | cons t tables ih =>
    rw [List.forall_mem_cons] at hentries
    have hname : root.lookup t.name = none := lookup_eq_none_of_not_mem fun hmem ↦
      List.disjoint_of_nodup_append hnodup hmem List.mem_cons_self
    have hfill : (t.entries.map fun entry ↦ Line.assign [entry.1] entry.2).foldlM Document.addLine
        { root := root ++ [(t.name, .table .header [])], current := [t.name] } =
        some { root := root ++ [t.toNode], current := [t.name] } :=
      foldlM_assign hname hentries.1
    have hrest : ((root ++ [t.toNode]).map Prod.fst ++ tables.map FlatTable.name).Nodup := by
      simpa [FlatTable.toNode] using hnodup
    obtain ⟨d, hd, hroot⟩ := ih hrest hentries.2 [t.name]
    refine ⟨d, ?_, by simpa using hroot⟩
    rw [List.flatMap_cons, List.foldlM_append, FlatTable.lines, List.foldlM_cons,
      addLine_header hname, Option.bind_eq_bind, Option.bind_some, hfill]
    exact hd

theorem toValues_tables (tables : List FlatTable) :
    Entries.toValues (tables.map FlatTable.toNode) = tables.map FlatTable.toValue := by
  have hentries (entries : List (String × Value)) :
      Entries.toValues (entries.map fun entry ↦ (entry.1, .value entry.2)) = entries := by
    induction entries with
    | nil => rfl
    | cons entry entries ih => rw [List.map_cons, Entries.toValues, ih, Node.toValue]
  induction tables with
  | nil => rfl
  | cons t tables ih =>
    rw [List.map_cons, FlatTable.toNode, Entries.toValues, ih, Node.toValue, hentries]
    rfl

/-- **A document of tables is read as these tables.** -/
theorem parse?_tables {text : String} {tables : List FlatTable}
    (hmark : text.toList.head? ≠ some '\uFEFF')
    (hlines : lines? text.toList = some (tables.flatMap FlatTable.lines))
    (hnodup : (tables.map FlatTable.name).Nodup)
    (hentries : ∀ t ∈ tables, (t.entries.map Prod.fst).Nodup) :
    parse? text = some (tables.map FlatTable.toValue) := by
  obtain ⟨d, hd, hroot⟩ : ∃ d : Document,
      (tables.flatMap FlatTable.lines).foldlM Document.addLine {} = some d ∧
        d.root = [] ++ tables.map FlatTable.toNode :=
    exists_foldlM_tables (by simpa using hnodup) hentries []
  unfold parse?
  split
  · next rest hrest =>
    rw [hrest] at hmark
    exact absurd rfl hmark
  · simp only [hlines, Option.bind_eq_bind, Option.bind_some, hd, hroot, List.nil_append,
      toValues_tables]

end SchemaDiagram.Toml
