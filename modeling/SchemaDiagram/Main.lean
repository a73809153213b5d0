import SchemaDiagram.Command.Run

/-!
# The program

The outer layer: it looks at the part of the disk that a run can depend on, lets the run happen on
that picture of the disk, and carries out what has changed in the picture.
-/

namespace SchemaDiagram.Main

/-- A picture of the disk that is being taken. -/
structure Picture where
  /-- What has been seen so far. -/
  disk : Disk := { root := .dir [] }
  /-- The directories whose entries have been seen. -/
  opened : List Place := []

/-- Looks at one path, of which the directories have been seen. The bytes of a file are read if its
name asks for it. -/
def glance (wanted : String → Bool) (path : Path) (picture : Picture) :
    IO (Picture × List Path) := do
  match picture.disk.resolve path with
  | .ok (.free place) =>
    let parent ← IO.FS.realPath ((Path.parent? path).getD "/")
    let name := place.getLastD ""
    let some entry := (← parent.readDir).find? fun entry ↦ entry.fileName == name
      | return (picture, [])
    let add (node : Node) : Picture := { picture with disk := picture.disk.put place node }
    match (← entry.path.symlinkMetadata).type with
    | .dir => return (add (.dir []), [])
    | .symlink =>
      try
        let target ← IO.FS.realPath path
        return (add (.link target.toString), [target.toString])
      catch _ => return (add (.link (path ++ ".missing")), [])
    | _ =>
      let bytes ← if wanted name then IO.FS.readBinFile path else pure ByteArray.empty
      return (add (.file bytes.toList), [])
  | _ => return (picture, [])

/-- Looks at a path, at all directories on the way to it and at all that links on it lead to. -/
partial def look (wanted : String → Bool) (path : Path) (picture : Picture) : IO Picture := do
  let picture ← match Path.parent? path with
    | some parent => look wanted parent picture
    | none => pure picture
  let (picture, targets) ← glance wanted path picture
  targets.foldlM (fun picture target ↦ look wanted target picture) picture

/-- What stands where a path is too long to be followed: its kind alone can matter. -/
def glanceAtKind (entry : IO.FS.DirEntry) : IO Node := do
  try
    match (← entry.path.symlinkMetadata).type with
    | .dir => return .dir []
    | .symlink => return .link ""
    | _ => return .file []
  catch _ => return .file []

/-- Looks at what a directory holds, down to the given number of levels. -/
partial def lookInside (wanted : String → Bool) (levels : Nat) (path : Path) (picture : Picture) :
    IO Picture := do
  let picture ← look wanted path picture
  match picture.disk.locate path with
  | .error _ => return picture
  | .ok place =>
    if levels = 0 || picture.opened.contains place || !picture.disk.isDirectory path then
      return picture
    let mut picture := { picture with opened := place :: picture.opened }
    for entry in ← (← IO.FS.realPath path).readDir do
      let inner := if isPassedOver entry.fileName true then 0 else levels - 1
      let entryPath := Path.join path entry.fileName
      if entryPath.utf8ByteSize < Disk.maxPathBytes then
        picture ← lookInside wanted inner entryPath picture
      else
        let node ← glanceAtKind entry
        picture := { picture with disk := picture.disk.put (place ++ [entry.fileName]) node }
    return picture

/-- The place of an absolute path. -/
def placeOf (path : Path) : Place := path.steps

/-- Looks at what tells where the project is and what its settings are. -/
def lookForProject (cwd : Place) : IO Picture := do
  let mut picture : Picture := {}
  for length in List.range (cwd.length + 1) do
    let dir := Place.path (cwd.take length)
    for name in [Project.settingsFile, Project.manifestFile] do
      picture ← look (· == Project.settingsFile) (Path.join dir name) picture
  return picture

/-- The sources that a command reads. -/
def selection? : Command → Option Selection
  | .init _ => none
  | .generate selection _ | .inspect _ selection => some selection

/-- Looks at what a command reads and at where it writes. -/
def lookForCommand (project : Project) (command : Command) (picture : Picture) : IO Picture := do
  let picture ← match command.writes? project with
    | some path => look (fun _ ↦ false) path picture
    | none => pure picture
  match selection? command with
  | none => look (fun _ ↦ false) (project.modelsDir none) picture
  | some selection =>
    let settings := selection.apply project.settings.scan
    lookInside settings.selects (walkDepth settings) (project.modelsDir selection.modelsDir) picture

/-- Makes the directories on the way to a path that a run has made. -/
partial def makeMissing (before after : Disk) (path : Path) : IO Unit := do
  if let some parent := Path.parent? path then
    makeMissing before after parent
    if after.isDirectory parent && !before.isDirectory parent then
      IO.FS.createDirAll parent

/-- Carries out what a run has done to the file that its command writes. -/
def carryOut (before after : Disk) (path : Path) : IO Unit := do
  makeMissing before after path
  match after.read path with
  | .ok bytes =>
    if (before.read path).toOption != some bytes then
      IO.FS.writeBinFile path (ByteArray.mk bytes.toArray)
  | .error _ => return

/-- What the environment says about colours. -/
def environment : IO Terminal.Environment := do
  return {
    isTerminal := ← (← IO.getStdout).isTty
    colour := ← IO.getEnv "CLICOLOR"
    force := ← IO.getEnv "CLICOLOR_FORCE"
    noColour := ← IO.getEnv "NO_COLOR" }

/-- Runs a command line on the disk as it is. -/
def runOnDisk (arguments : List String) : IO UInt32 := do
  let cwd := placeOf (← IO.currentDir).toString
  let mut picture : Picture := {}
  let mut written : Option Path := none
  if let .ok (.run _ command) := Arguments.parse arguments then
    picture ← lookForProject cwd
    if let .ok project := Project.find picture.disk cwd then
      picture ← lookForCommand project command picture
      written := command.writes? project
  let outcome := run picture.disk cwd (← environment) arguments
  if let some path := written then
    carryOut picture.disk outcome.disk path
  IO.print outcome.output
  IO.eprint outcome.errorOutput
  return outcome.status.code.toUInt32

end SchemaDiagram.Main

/-- The program. -/
def main (arguments : List String) : IO UInt32 := SchemaDiagram.Main.runOnDisk arguments
