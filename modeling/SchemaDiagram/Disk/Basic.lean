import SchemaDiagram.Disk.Node
import SchemaDiagram.Disk.Path
import SchemaDiagram.Text.Utf8

/-!
# Disks

What paths lead to on a disk, and the few operations that a program performs on it. Symbolic links
are followed wherever they stand on a path; a link at the end of a path is followed too, so that
writing through a link that leads nowhere makes the file it names.
-/

namespace SchemaDiagram

/-- The files and directories that a program can see. -/
structure Disk where
  /-- The directory of all absolute paths. -/
  root : Node

/-- Where a path leads. -/
inductive Destination where
  /-- To the node at a place. -/
  | found (place : Place)
  /-- To a place in an existing directory that is still free. -/
  | free (place : Place)
  deriving DecidableEq, Repr

namespace Disk

/-- The number of symbolic links that are followed on one path. -/
def maxLinks : Nat := 40

/-- The greatest number of bytes of a name. -/
def maxNameBytes : Nat := 255

/-- The number of bytes that a path stays below. -/
def maxPathBytes : Nat := 4096

/-- The node at a place. -/
def at? (disk : Disk) (place : Place) : Option Node := disk.root.at? place

/-- Puts a node at a place. -/
def put (disk : Disk) (place : Place) (node : Node) : Disk :=
  { root := disk.root.put place node }

/-- Walks from a place along the names of a path. At most `links` links are followed: a link puts
the names of its target in place of its own. -/
def follow (disk : Disk) (links : Nat) (place : Place) : List String → Except DiskError Destination
  | [] => .ok (.found place)
  | name :: rest =>
    match disk.at? place with
    | some (.dir entries) =>
      if name = "." then disk.follow links place rest
      else if name = ".." then disk.follow links place.dropLast rest
      else if maxNameBytes < name.utf8ByteSize then .error .nameTooLong
      else
        match entries.lookup name with
        | none => if rest.isEmpty then .ok (.free (place ++ [name])) else .error .notFound
        | some (.link target) =>
          match links with
          | 0 => .error .tooManyLinks
          | links + 1 =>
            disk.follow links (if Path.isAbsolute target then [] else place)
              (Path.steps target ++ rest)
        | some _ => disk.follow links (place ++ [name]) rest
    | _ => .error .notADirectory
termination_by names => (links, names.length)

/-- Where an absolute path leads. -/
def resolve (disk : Disk) (path : Path) : Except DiskError Destination :=
  if maxPathBytes ≤ path.utf8ByteSize then .error .nameTooLong
  else disk.follow maxLinks [] path.steps

/-- The place of what a path leads to. -/
def locate (disk : Disk) (path : Path) : Except DiskError Place :=
  match disk.resolve path with
  | .ok (.found place) => .ok place
  | .ok (.free _) => .error .notFound
  | .error e => .error e

/-- The node that a path leads to. -/
def node? (disk : Disk) (path : Path) : Option Node :=
  (disk.locate path).toOption.bind disk.at?

/-- Whether a path leads to anything. -/
def pathExists (disk : Disk) (path : Path) : Bool := (disk.node? path).isSome

/-- Whether a path leads to a directory. -/
def isDirectory (disk : Disk) (path : Path) : Bool := (disk.node? path).any Node.isDir

/-- The place of the directory that a path leads to. -/
def locateDirectory (disk : Disk) (path : Path) : Except DiskError Place := do
  let place ← disk.locate path
  if (disk.at? place).any Node.isDir then .ok place else .error .notADirectory

/-- The entries of the directory at a place, as far as there are paths to them. -/
def entriesAt (disk : Disk) (place : Place) : List (String × Node) :=
  match disk.at? place with
  | some (.dir entries) => entries.filter fun entry ↦ Node.IsName entry.1
  | _ => []

/-- The bytes of the file that a path leads to. -/
def read (disk : Disk) (path : Path) : Except DiskError (List UInt8) := do
  let place ← disk.locate path
  match disk.at? place with
  | some (.file bytes) => .ok bytes
  | some _ => .error .isADirectory
  | none => .error .notFound

/-- Whether a path asks for a directory by a slash at its end. -/
def asksDirectory (path : Path) : Bool := path.toList.getLast? == some '/'

/-- Why a path that asks for a directory cannot be written: it asks for the wrong thing, unless the
directory that it lies in is not there to begin with. -/
def directoryAsked (disk : Disk) (path : Path) : DiskError :=
  match disk.follow maxLinks [] path.steps.dropLast.dropLast with
  | .ok (.found place) => if (disk.at? place).any Node.isDir then .isADirectory else .notADirectory
  | .ok (.free _) => .notFound
  | .error e => e

/-- Writes a file: it is made if it does not exist, and replaced if it does. -/
def write (disk : Disk) (path : Path) (bytes : List UInt8) : Except DiskError Disk :=
  if asksDirectory path then .error (disk.directoryAsked path)
  else
    match disk.resolve path with
    | .ok (.free place) => .ok (disk.put place (.file bytes))
    | .ok (.found place) =>
      match disk.at? place with
      | some (.file _) => .ok (disk.put place (.file bytes))
      | _ => .error .isADirectory
    | .error e => .error e

/-- Makes a directory in an existing one. A link of that name is not followed. -/
def makeDirectory (disk : Disk) (path : Path) : Except DiskError Disk :=
  if maxPathBytes ≤ path.utf8ByteSize then .error .nameTooLong
  else
    let names := if asksDirectory path then path.steps.dropLast else path.steps
    match names.getLast? with
    | none => .error .alreadyExists
    | some name =>
      match disk.follow maxLinks [] names.dropLast with
      | .ok (.found place) =>
        match disk.at? place with
        | some (.dir entries) =>
          if name = "." ∨ name = ".." then .error .alreadyExists
          else if maxNameBytes < name.utf8ByteSize then .error .nameTooLong
          else if (entries.lookup name).isSome then .error .alreadyExists
          else .ok (disk.put (place ++ [name]) (.dir []))
        | _ => .error .notADirectory
      | .ok (.free _) => .error .notFound
      | .error e => .error e

/-- Makes a directory and all that are missing on the way to it. The directories that were made
stay if a later one cannot be made. The budget bounds the length of the way. -/
def makeDirectoriesWithin : (budget : Nat) → Disk → Path → Disk × Option DiskError
  | 0, disk, _ => (disk, some .nameTooLong)
  | budget + 1, disk, path =>
    match disk.makeDirectory path with
    | .ok disk => (disk, none)
    | .error .notFound =>
      match Path.parent? path with
      | none => (disk, some .notFound)
      | some parent =>
        match makeDirectoriesWithin budget disk parent with
        | (disk, some e) => (disk, some e)
        | (disk, none) =>
          match disk.makeDirectory path with
          | .ok disk => (disk, none)
          | .error e => if disk.isDirectory path then (disk, none) else (disk, some e)
    | .error e => if disk.isDirectory path then (disk, none) else (disk, some e)

/-- Makes a directory and all that are missing on the way to it. -/
def makeDirectories (disk : Disk) (path : Path) : Disk × Option DiskError :=
  disk.makeDirectoriesWithin (path.length + 1) path

end Disk

end SchemaDiagram
