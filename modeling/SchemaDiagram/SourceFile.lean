import SchemaDiagram.Disk.Basic
import SchemaDiagram.Settings

/-!
# Source files

The model sources of a project are found by walking its models directory. Symbolic links are
followed, and a link is resolved before anything else is asked about it; so a link that leads
nowhere, or back to a directory that the walk is in, ends the walk with an error whatever its name.
Hidden entries and dependency directories are passed over. Directories are opened and sources are
read by their paths, which the disk may refuse, and then the walk ends with an error as well. The
result is sorted by relative path.
-/

namespace SchemaDiagram

/-- A model source that was read. -/
structure SourceFile where
  /-- The path of the file, starting with the models directory as it was given. -/
  path : Path
  /-- The path of the file within the models directory. -/
  relativePath : String
  /-- The name of the file. -/
  name : String
  /-- The text of the file; what is no UTF-8 is replaced. -/
  text : String
  deriving DecidableEq, Repr

/-- Why a walk ends early. -/
inductive WalkError where
  /-- A path could not be followed. -/
  | unreachable (path : Path) (cause : DiskError)
  /-- A link leads to a directory that the walk is in. -/
  | loop (path ancestor : Path)
  deriving DecidableEq, Repr

/-- Why the model sources cannot be read. -/
inductive ScanError where
  /-- The models directory does not exist. -/
  | modelsDirNotFound (path : Path)
  /-- A file could not be read. -/
  | unreadable (path : Path) (cause : DiskError)
  /-- The directory could not be walked. -/
  | walk (cause : WalkError)
  deriving DecidableEq, Repr

/-- The wordings of a walk error and of what caused it. -/
def WalkError.messages : WalkError → List String
  | unreachable path cause =>
    ["IO error for operation on " ++ path ++ ": " ++ cause.message, cause.message]
  | loop path ancestor =>
    ["File system loop found: " ++ path ++ " points to an ancestor " ++ ancestor]

namespace ScanError

/-- The wording of the error, without its cause. -/
def message : ScanError → String
  | modelsDirNotFound path => "models directory not found: " ++ path
  | unreadable path _ => "failed to read " ++ path
  | walk _ => "failed to walk models directory"

/-- The wordings of the error and of all that caused it. -/
def messages (e : ScanError) : List String :=
  e.message ::
    match e with
    | modelsDirNotFound _ => []
    | unreadable _ cause => [cause.message]
    | walk cause => cause.messages

end ScanError

/-! ### The walk -/

/-- A directory that the walk is in. -/
structure Visited where
  /-- Where it is. -/
  place : Place
  /-- The path on which the walk came to it. -/
  path : Path
  deriving DecidableEq, Repr

/-- Whether the walk passes over an entry. -/
def isPassedOver (name : String) (isDir : Bool) : Bool :=
  name.toList.head? == some '.' || (isDir && name == "node_modules")

/-- Whether a file of this name is a model source. -/
def ScanSettings.selects (s : ScanSettings) (name : String) : Bool :=
  (Path.extension? name).any s.acceptsExtension && s.allows name

/-- The place of a directory's entry. A link is followed; it must not lead to a directory that the
walk is in. -/
def entryPlace (disk : Disk) (visited : List Visited) (dir : Place) (path : Path) (name : String) :
    Node → Except ScanError Place
  | .link _ =>
    match disk.locate path with
    | .error e => .error (.walk (.unreachable path e))
    | .ok place =>
      match if (disk.at? place).any Node.isDir then visited.find? (·.place = place) else none with
      | some ancestor => .error (.walk (.loop path ancestor.path))
      | none => .ok place
  | _ => .ok (dir ++ [name])

/-- The place of the directory that a path leads to, for going into it. -/
def openDirectory (disk : Disk) (path : Path) : Except ScanError Place :=
  match disk.locateDirectory path with
  | .error e => .error (.walk (.unreachable path e))
  | .ok place => .ok place

/-- The text of the file that a path leads to. -/
def readSource (disk : Disk) (path : Path) : Except ScanError String :=
  match disk.read path with
  | .error e => .error (.unreadable path e)
  | .ok bytes => .ok (Text.decodeLossy bytes)

/-- The sources below a directory, of which `relative` is the path within the models directory. The
walk came to it through the directories in `outer`, the last one first. Directories more than
`depth` levels down are not entered. -/
def walk (disk : Disk) (settings : ScanSettings) :
    (depth : Nat) → (dir : Path) → (outer : List Visited) → (relative : Path) →
      Except ScanError (List SourceFile)
  | 0, _, _, _ => .ok []
  | depth + 1, dir, outer, relative => do
    let place ← openDirectory disk dir
    let visited := { place, path := dir } :: outer
    let found ← (disk.entriesAt place).mapM fun (name, node) ↦ do
      let path := dir.join name
      let relativePath := if relative.isEmpty then name else relative ++ "/" ++ name
      match disk.at? (← entryPlace disk visited place path name node) with
      | some (.dir _) =>
        if isPassedOver name true then .ok []
        else walk disk settings depth path visited relativePath
      | some (.file _) =>
        if isPassedOver name false || !settings.selects name then .ok []
        else (readSource disk path).map fun text ↦ [{ path, relativePath, name, text }]
      | _ => .ok []
    .ok found.flatten

/-- How many levels of directories are entered. Without searching subdirectories it is the models
directory alone. Otherwise the bound is never reached: paths grow with each level, and so many
levels down they are too long to be opened. -/
def walkDepth (settings : ScanSettings) : Nat :=
  if settings.recursive then Disk.maxPathBytes + 1 else 1

/-- The model sources in a directory, sorted by relative path. -/
def discoverSources (disk : Disk) (dir : Path) (settings : ScanSettings) :
    Except ScanError (List SourceFile) :=
  if disk.isDirectory dir then
    (walk disk settings (walkDepth settings) dir [] "").map fun sources ↦
      sources.mergeSort fun a b ↦ decide (a.relativePath ≤ b.relativePath)
  else .error (.modelsDirNotFound dir)

end SchemaDiagram
