import SchemaDiagram.Toml.Number
import SchemaDiagram.Toml.Quoted

/-!
# Keys, values and lines of TOML

A key is one name or several with dots between them, and a value may hold further values, in lists
and inline tables. How deep values nest and how many names a key has is bounded. A document is a
sequence of lines that are read one by one; what the lines mean together is the matter of
`SchemaDiagram.Toml.Document`.
-/

namespace SchemaDiagram.Toml

open Text

/-- Lists and inline tables nest up to this depth, and keys have up to so many names. -/
def maxDepth : Nat := 79

/-- Whether a name without quotes may contain the character. -/
def isBareKeyChar (c : Char) : Bool := c.isAlphanum || c == '-' || c == '_'

/-- One name of a key and the text after it. -/
def simpleKey? (text : List Char) : Option (String × List Char) :=
  let bare := text.takeWhile isBareKeyChar
  if bare.isEmpty then (lineString? text).map fun (name, rest) ↦ (String.ofList name, rest)
  else some (String.ofList bare, text.dropWhile isBareKeyChar)

/-- The names of a key, which blanks may surround, and the text after it. The budget bounds the
number of names. -/
def keyWithin? : (budget : Nat) → List Char → Option (List String × List Char)
  | 0, _ => none
  | budget + 1, text => do
    let (name, rest) ← simpleKey? (skipSpaces text)
    let rest := skipSpaces rest
    match expect '.' rest with
    | some rest => (keyWithin? budget rest).map fun (names, rest) ↦ (name :: names, rest)
    | none => some ([name], rest)

/-- A key and the text after it. -/
def key? (text : List Char) : Option (List String × List Char) := keyWithin? maxDepth text

/-- The items of a list, separated by commas, up to the closing bracket. A comma may follow the
last item. Each item takes at least one character, so the text's length is a sufficient budget. -/
def listItems? (item : List Char → Option (Value × List Char)) :
    (budget : Nat) → List Char → Option (List Value × List Char)
  | 0, _ => none
  | budget + 1, text =>
    match expect ']' (skipLines text) with
    | some rest => some ([], rest)
    | none => do
      let (value, rest) ← item (skipLines text)
      let rest := skipLines rest
      match expect ',' rest with
      | some rest => (listItems? item budget rest).map fun (values, rest) ↦ (value :: values, rest)
      | none => (expect ']' rest).map fun rest ↦ ([value], rest)

/-- A key and the value that is assigned to it. -/
abbrev Assignment := List String × Value

/-- A key, an equals sign and a value. -/
def assignment? (item : List Char → Option (Value × List Char)) (text : List Char) :
    Option (Assignment × List Char) := do
  let (key, rest) ← key? text
  let rest ← expect '=' rest
  let (value, rest) ← item (skipSpaces rest)
  some ((key, value), rest)

/-- The assignments of an inline table, separated by commas, up to the closing brace. No comma may
follow the last one. -/
def inlineAssignments? (item : List Char → Option (Value × List Char)) :
    (budget : Nat) → List Char → Option (List Assignment × List Char)
  | 0, _ => none
  | budget + 1, text => do
    let (first, rest) ← assignment? item text
    let rest := skipSpaces rest
    match expect ',' rest with
    | some rest =>
      (inlineAssignments? item budget rest).map fun (others, rest) ↦ (first :: others, rest)
    | none => (expect '}' rest).map fun rest ↦ ([first], rest)

/-! ### Tables that are being built -/

/-- How a table came to be. -/
inductive Origin where
  /-- It has a header of its own, or is the root. -/
  | header
  /-- It lies on the way to a table with a header. -/
  | implied
  /-- It lies on the way to a value with a dotted key. -/
  | dotted
  deriving DecidableEq, Repr

/-- What a name stands for in a table that is being built. -/
inductive Node where
  /-- A value, which cannot be added to. -/
  | value (value : Value)
  /-- A table. -/
  | table (origin : Origin) (entries : List (String × Node))
  /-- A list of tables, of which the last is being built. -/
  | tables (items : List (List (String × Node)))
  deriving Repr

/-- The entries of a table that is being built, in order. -/
abbrev Entries := List (String × Node)

/-- Sets the entry of a name, in its old place if there is one. -/
def Entries.set (name : String) (node : Node) : Entries → Entries
  | [] => [(name, node)]
  | (other, old) :: rest =>
    if other = name then (name, node) :: rest else (other, old) :: Entries.set name node rest

/-- Changes the table at the end of a path. Tables that are missing on the way are made; a dotted
key may not lead through a table that has a header, and nothing leads through a value. -/
def Entries.change (dotted : Bool) (f : Origin → Entries → Option Entries) :
    (path : List String) → Origin → Entries → Option Entries
  | [], origin, entries => f origin entries
  | name :: path, _, entries =>
    match entries.lookup name with
    | none =>
      let origin := if dotted then .dotted else .implied
      (change dotted f path origin []).map fun inner ↦ entries.set name (.table origin inner)
    | some (.value _) => none
    | some (.table origin inner) =>
      if dotted ∧ origin = .header then none
      else (change dotted f path origin inner).map fun inner ↦ entries.set name (.table origin inner)
    | some (.tables items) =>
      (change dotted f path .header (items.getLastD [])).map fun inner ↦
        entries.set name (.tables (items.dropLast ++ [inner]))

/-- Assigns a value to a key. The name must be new, and a key of several names must end in a table
that dotted keys have made. -/
def Entries.assign (key : List String) (value : Value) (origin : Origin) (entries : Entries) :
    Option Entries :=
  match key.getLast? with
  | none => none
  | some name =>
    let path := key.dropLast
    change true (fun origin entries ↦
      if (origin == .dotted) == path.isEmpty then none
      else if (entries.lookup name).isSome then none
      else some (entries ++ [(name, .value value)])) path origin entries

mutual

/-- The value of something built. -/
def Node.toValue : Node → Value
  | .value value => value
  | .table _ entries => .table (Entries.toValues entries)
  | .tables items => .array (Entries.toTables items)

/-- The values of the entries of a table. -/
def Entries.toValues : List (String × Node) → List (String × Value)
  | [] => []
  | (name, node) :: rest => (name, node.toValue) :: Entries.toValues rest

/-- The tables of a list of tables. -/
def Entries.toTables : List (List (String × Node)) → List Value
  | [] => []
  | entries :: rest => .table (Entries.toValues entries) :: Entries.toTables rest

end

/-- The table that assignments make. -/
def inlineTable? (assignments : List Assignment) : Option Value :=
  (assignments.foldlM (fun (entries : Entries) (key, value) ↦
    entries.assign key value .header) []).map fun entries ↦ .table (Entries.toValues entries)

/-! ### Values and lines -/

/-- A value and the text after it; `depth` bounds how deep values nest in it. -/
def valueWithin? : (depth : Nat) → List Char → Option (Value × List Char)
  | depth, text =>
    match text with
    | [] => none
    | c :: rest =>
      if c = '"' ∨ c = '\'' then
        (string? text).map fun (body, rest) ↦ (.string (String.ofList body), rest)
      else if c = '[' then
        match depth with
        | 0 => none
        | depth + 1 =>
          (listItems? (valueWithin? depth) (rest.length + 1) rest).map fun (items, rest) ↦
            (.array items, rest)
      else if c = '\x7b' then
        match depth with
        | 0 => none
        | depth + 1 =>
          match expect '\x7d' (skipSpaces rest) with
          | some rest => some (.table [], rest)
          | none => do
            let (assignments, rest) ←
              inlineAssignments? (valueWithin? depth) (rest.length + 1) rest
            let table ← inlineTable? assignments
            some (table, rest)
      else plainValue? text

/-- A value and the text after it. -/
def value? (text : List Char) : Option (Value × List Char) := valueWithin? maxDepth text

/-- A line of a document that says something. -/
inductive Line where
  /-- Opens the table of a key. -/
  | header (key : List String)
  /-- Opens a new table of a list of tables. -/
  | listHeader (key : List String)
  /-- Assigns a value. -/
  | assign (key : List String) (value : Value)
  deriving Repr

/-- The statement at the front, without the end of its line. -/
def statement? (text : List Char) : Option (Line × List Char) :=
  match text with
  | '[' :: '[' :: rest => do
    let (key, rest) ← key? rest
    let rest ← expectWord [']', ']'] rest
    some (.listHeader key, rest)
  | '[' :: rest => do
    let (key, rest) ← key? rest
    let rest ← expect ']' rest
    some (.header key, rest)
  | _ => (assignment? value? text).map fun ((key, value), rest) ↦ (.assign key value, rest)

/-- The lines of a document. Each takes at least one character, so the text's length is a
sufficient budget. -/
def linesWithin? : (budget : Nat) → List Char → Option (List Line)
  | 0, _ => none
  | budget + 1, text =>
    match skipSpaces text with
    | [] => some []
    | text => do
      match lineBreak? text with
      | some rest => linesWithin? budget rest
      | none =>
        if text.head? = some '#' then linesWithin? budget (← endOfLine? text)
        else
          let (line, rest) ← statement? text
          (linesWithin? budget (← endOfLine? rest)).map (line :: ·)

/-- The lines of a document. -/
def lines? (text : List Char) : Option (List Line) := linesWithin? (text.length + 1) text

end SchemaDiagram.Toml
