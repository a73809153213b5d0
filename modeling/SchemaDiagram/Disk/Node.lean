/-!
# Files and directories

The part of a disk that a program can see is a tree of directories with files and symbolic links.
A place is the list of names from the root to a node, without links on the way.
-/

namespace SchemaDiagram

/-- Why an operation on the disk fails. -/
inductive DiskError where
  /-- There is nothing of that name. -/
  | notFound
  /-- There is something of that name already. -/
  | alreadyExists
  /-- Something on the way is no directory. -/
  | notADirectory
  /-- A directory stands where a file is needed. -/
  | isADirectory
  /-- A name or a path is too long. -/
  | nameTooLong
  /-- Too many symbolic links are on the way. -/
  | tooManyLinks
  deriving DecidableEq, Repr

/-- The wording of an error, with its number. -/
def DiskError.message : DiskError → String
  | notFound => "No such file or directory (os error 2)"
  | alreadyExists => "File exists (os error 17)"
  | notADirectory => "Not a directory (os error 20)"
  | isADirectory => "Is a directory (os error 21)"
  | nameTooLong => "File name too long (os error 36)"
  | tooManyLinks => "Too many levels of symbolic links (os error 40)"

/-- A node of the tree. -/
inductive Node where
  /-- A file with its bytes. -/
  | file (bytes : List UInt8)
  /-- A symbolic link with the path it leads to. -/
  | link (target : String)
  /-- A directory with its entries. -/
  | dir (entries : List (String × Node))

/-- The names from the root to a node. -/
abbrev Place := List String

namespace Node

/-- Whether the node is a directory. -/
def isDir : Node → Bool
  | dir _ => true
  | _ => false

/-- The node at a place. -/
def at? : Node → Place → Option Node
  | node, [] => some node
  | dir entries, name :: place => (entries.lookup name).bind fun node ↦ node.at? place
  | _, _ :: _ => none

/-- Sets the entry of a name, in its old place if there is one. -/
def setEntry (name : String) (node : Node) : List (String × Node) → List (String × Node)
  | [] => [(name, node)]
  | (other, old) :: rest =>
    if other = name then (name, node) :: rest else (other, old) :: setEntry name node rest

/-- Puts a node at a place. Without a directory to hold it there, nothing changes. -/
def put : (tree : Node) → (place : Place) → (new : Node) → Node
  | _, [], new => new
  | dir entries, [name], new => dir (setEntry name new entries)
  | dir entries, name :: next :: place, new =>
    match entries.lookup name with
    | some node => dir (setEntry name (node.put (next :: place) new) entries)
    | none => dir entries
  | node, _ :: _, _ => node

/-- What an entry of a directory can be called: a text without slashes, and not the empty one. -/
structure IsName (name : String) : Prop where
  /-- There is something to it. -/
  ne_empty : name ≠ ""
  /-- It is one part of a path. -/
  no_slash : '/' ∉ name.toList

instance (name : String) : Decidable (IsName name) :=
  decidable_of_iff (name ≠ "" ∧ '/' ∉ name.toList) ⟨fun h ↦ ⟨h.1, h.2⟩, fun h ↦ ⟨h.1, h.2⟩⟩

end Node

end SchemaDiagram
