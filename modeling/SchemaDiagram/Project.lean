import SchemaDiagram.Disk.Basic
import SchemaDiagram.Settings

/-!
# Projects

A project is the nearest directory, from the working directory upwards, that holds a settings file
or a package manifest; without one it is the working directory. All paths of a run are seen from the
project, so it does not matter from where within the project the run was started.
-/

namespace SchemaDiagram

/-- The absolute path of a place. -/
def Place.path (place : Place) : Path := "/" ++ String.intercalate "/" place

/-- A project with its settings. -/
structure Project where
  /-- The directory of the project. -/
  root : Path
  /-- The settings; the defaults where there is no settings file. -/
  settings : Settings
  deriving DecidableEq, Repr

/-- Why the settings of a project cannot be loaded. -/
inductive SettingsError where
  /-- The file cannot be read. -/
  | unreadable (path : Path) (cause : DiskError)
  /-- The file is no UTF-8. -/
  | notUtf8 (path : Path)
  /-- The file holds no settings. -/
  | invalid (path : Path)
  deriving DecidableEq, Repr

/-- The wording of the error with its cause. -/
def SettingsError.message : SettingsError → String
  | unreadable path cause => "Failed to read " ++ path ++ ": " ++ cause.message
  | notUtf8 path => "Failed to read " ++ path ++ ": stream did not contain valid UTF-8"
  | invalid path => "Failed to parse " ++ path ++ ": TOML parse error"

namespace Project

/-- The name of the settings file. -/
def settingsFile : String := "sequelize-erd.toml"

/-- The name of the package manifest, which marks a project as well. -/
def manifestFile : String := "package.json"

/-- Whether a directory is marked as a project. -/
def isMarked (disk : Disk) (dir : Path) : Bool :=
  disk.pathExists (dir.join settingsFile) || disk.pathExists (dir.join manifestFile)

/-- The nearest marked directory, given the names from the working directory up to the root. -/
def markedAbove? (disk : Disk) : List String → Option Path
  | [] => if isMarked disk (Place.path []) then some (Place.path []) else none
  | name :: above =>
    let dir := Place.path (name :: above).reverse
    if isMarked disk dir then some dir else markedAbove? disk above

/-- The directory of the project that a working directory belongs to. -/
def findRoot (disk : Disk) (cwd : Place) : Path :=
  (markedAbove? disk cwd.reverse).getD cwd.path

/-- The settings in a file, or the defaults where there is none. -/
def loadSettings (disk : Disk) (path : Path) : Except SettingsError Settings :=
  if disk.pathExists path then
    match disk.read path with
    | .error cause => .error (.unreadable path cause)
    | .ok bytes =>
      match Text.decode? bytes with
      | none => .error (.notUtf8 path)
      | some text =>
        match Settings.parse? text with
        | none => .error (.invalid path)
        | some settings => .ok settings
  else .ok {}

/-- The project that a working directory belongs to. -/
def find (disk : Disk) (cwd : Place) : Except SettingsError Project :=
  let root := findRoot disk cwd
  (loadSettings disk (root.join settingsFile)).map fun settings ↦ { root, settings }

/-- The path of the settings file. -/
def settingsPath (p : Project) : Path := p.root.join settingsFile

/-- The models directory; a path on the command line counts before the settings. -/
def modelsDir (p : Project) (override : Option Path) : Path :=
  p.root.join (override.getD p.settings.scan.modelsDir)

/-- The file that the diagram is written to; a path on the command line counts before the
settings. -/
def outputFile (p : Project) (override : Option Path) : Path :=
  p.root.join (override.getD p.settings.output.file)

/-- A path as it is shown: seen from the project, if it lies there. -/
def shown (p : Project) (path : Path) : String := (Path.relativeTo? p.root path).getD path

end Project

end SchemaDiagram
