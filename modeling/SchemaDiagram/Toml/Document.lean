import SchemaDiagram.Toml.Reader

/-!
# TOML documents

The lines of a document build up one table. A header opens the table to which the assignments after
it belong. A table has at most one header, and a name is given only once in a table.
-/

namespace SchemaDiagram.Toml

/-- A document of which some lines have been read. -/
structure Document where
  /-- The root table. -/
  root : Entries := []
  /-- The path of the table to which assignments belong. -/
  current : List String := []
  deriving Repr

namespace Document

/-- Gives the table of a name its header. -/
def openTable (name : String) (entries : Entries) : Option Entries :=
  match entries.lookup name with
  | none => some (entries ++ [(name, .table .header [])])
  | some (.table .implied inner) => some (entries.set name (.table .header inner))
  | some _ => none

/-- Starts another table in the list of a name. -/
def openListTable (name : String) (entries : Entries) : Option Entries :=
  match entries.lookup name with
  | none => some (entries ++ [(name, .tables [[]])])
  | some (.tables items) => some (entries.set name (.tables (items ++ [[]])))
  | some _ => none

/-- Opens the table of a key, in the way that is given for its last name. -/
def openAt (openLast : String → Entries → Option Entries) (key : List String) (d : Document) :
    Option Document := do
  let name ← key.getLast?
  let root ← Entries.change false (fun _ entries ↦ openLast name entries) key.dropLast .header d.root
  some { root, current := key }

/-- Takes one more line into account. -/
def addLine (d : Document) : Line → Option Document
  | .header key => d.openAt openTable key
  | .listHeader key => d.openAt openListTable key
  | .assign key value =>
    (Entries.change false (fun origin entries ↦ entries.assign key value origin) d.current
      .header d.root).map fun root ↦ { d with root }

end Document

/-- The root table of a document, unless the text is none. A byte order mark may stand in front. -/
def parse? (text : String) : Option (List (String × Value)) := do
  let chars := match text.toList with
    | '\uFEFF' :: rest => rest
    | chars => chars
  let lines ← lines? chars
  let document ← lines.foldlM Document.addLine {}
  some (Entries.toValues document.root)

end SchemaDiagram.Toml
