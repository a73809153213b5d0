import SchemaDiagram.Command.Arguments
import SchemaDiagram.Command.Help
import SchemaDiagram.Command.View
import SchemaDiagram.Project
import SchemaDiagram.SourceFile
import SchemaDiagram.Terminal

/-!
# Runs

A run of the program is a function from a disk, a working directory and a command line to what is
told and the disk afterwards. Only two commands write: one writes the settings file of the project,
the other the diagram, for which missing directories are made.
-/

namespace SchemaDiagram

open Terminal (Notice Manner)

/-- Why a command fails. -/
inductive CommandError where
  /-- The settings cannot be loaded. -/
  | settings (cause : SettingsError)
  /-- The sources cannot be read. -/
  | scan (dir : Path) (cause : ScanError)
  /-- A directory cannot be made. -/
  | create (path : Path) (cause : DiskError)
  /-- A file cannot be written. -/
  | write (path : Path) (cause : DiskError)
  deriving DecidableEq, Repr

/-- The wording of the error with its causes. -/
def CommandError.message : CommandError → String
  | settings cause => cause.message
  | scan dir cause =>
    String.intercalate ": " (("Failed to scan " ++ dir) :: cause.messages)
  | create path cause => "Failed to create " ++ path ++ ": " ++ cause.message
  | write path cause => "Failed to write " ++ path ++ ": " ++ cause.message

/-- What a command leaves behind. -/
structure Result where
  /-- What is told, in order. -/
  notices : List Notice
  /-- The disk afterwards. -/
  disk : Disk
  /-- Why the command failed, if it did. -/
  failure : Option CommandError := none

namespace Result

/-- A failure that changes nothing. -/
def failed (disk : Disk) (e : CommandError) : Result :=
  { notices := [], disk, failure := some e }

/-- A result with something told before. -/
def after (notices : List Notice) (r : Result) : Result :=
  { r with notices := notices ++ r.notices }

end Result

/-! ### Reading the sources -/

/-- The settings with what the command line selects. -/
def Selection.apply (s : Selection) (settings : ScanSettings) : ScanSettings :=
  { settings with
    only := if s.only.isEmpty then settings.only else s.only
    recursive := s.recursive.getD settings.recursive }

/-- What was read from the models directory. -/
structure Scan where
  /-- The models directory. -/
  dir : Path
  /-- The sources. -/
  sources : List SourceFile
  /-- What they declare. -/
  report : Report

/-- Reads the sources that are selected. -/
def scan (disk : Disk) (project : Project) (selection : Selection) : Except CommandError Scan :=
  let dir := project.modelsDir selection.modelsDir
  match discoverSources disk dir (selection.apply project.settings.scan) with
  | .error e => .error (.scan dir e)
  | .ok sources => .ok { dir, sources, report := Report.ofTexts (sources.map SourceFile.text) }

/-- The detail that is told about a scan. -/
def scanDetail (project : Project) (s : Scan) : Notice :=
  .detail ("Scanning " ++ View.count s.sources.length ++ " files in " ++ project.shown s.dir)

/-! ### The commands -/

/-- Writes a settings file with the defaults. -/
def runInit (disk : Disk) (project : Project) (force : Bool) : Result :=
  let path := project.settingsPath
  Result.after [.heading "Initialize sequelize-erd"] <|
    if disk.pathExists path && !force then
      { notices :=
          [.warning (project.shown path ++ " already exists"),
            .info "Use --force to overwrite it."]
        disk }
    else
      match disk.write path (Text.encode ({} : Settings).render) with
      | .error e => .failed disk (.write path e)
      | .ok disk =>
        let dir := project.modelsDir none
        let warnings :=
          if disk.isDirectory dir then []
          else [.warning ("Models directory " ++ project.shown dir
            ++ " does not exist yet; edit scan.models_dir to point at your models.")]
        { notices :=
            [.success ("Created " ++ project.shown path)] ++ warnings
              ++ [.info "Run 'sequelize-erd generate' to render the diagram."]
          disk }

/-- Writes a text to a file, for which missing directories are made. -/
def writeOutput (disk : Disk) (path : Path) (text : String) : Disk × Option CommandError :=
  let (disk, failure) :=
    match Path.parent? path with
    | none => (disk, none)
    | some parent =>
      let (disk, failure) := disk.makeDirectories parent
      (disk, failure.map (CommandError.create parent))
  match failure with
  | some e => (disk, some e)
  | none =>
    match disk.write path (Text.encode text) with
    | .ok disk => (disk, none)
    | .error e => (disk, some (.write path e))

/-- What is told to people about a scan, before the diagram is written. -/
def scanNotices (project : Project) (s : Scan) : List Notice :=
  [.info ("Found " ++ View.count s.sources.length ++ " files in " ++ project.shown s.dir)]
    ++ s.sources.map (fun source ↦ .detail ("📄 " ++ source.relativePath))
    ++ [.info ("Found " ++ View.count s.report.models.length ++ " models")]
    ++ (if s.report.models.isEmpty then
        [.warning "No sequelize.define(...) calls were recognized."]
      else [])

/-- Writes the diagram to a file. -/
def generateFile (disk : Disk) (project : Project) (options : GlobalOptions) (selection : Selection)
    (output : Path) : Result :=
  let isTable := options.format = .table
  Result.after (if isTable then [.heading "Generate ER Diagram"] else []) <|
    match scan disk project selection with
    | .error e => .failed disk e
    | .ok s =>
      Result.after (scanDetail project s :: if isTable then scanNotices project s else []) <|
        match writeOutput disk output s.report.diagram with
        | (disk, some e) => .failed disk e
        | (disk, none) =>
          { notices :=
              [if isTable then .success ("Diagram written to " ++ project.shown output)
                else .data ((View.ofSummary s.report output).text options.format options.plain)]
            disk }

/-- Makes the diagram. On the standard output nothing but the diagram is told. -/
def runGenerate (disk : Disk) (project : Project) (options : GlobalOptions) (selection : Selection) :
    Target → Result
  | .standardOutput =>
    match scan disk project selection with
    | .error e => .failed disk e
    | .ok s => { notices := [.document s.report.diagram], disk }
  | .file path => generateFile disk project options selection (project.outputFile path)

/-- Shows what is found. -/
def runInspect (disk : Disk) (project : Project) (options : GlobalOptions) (subject : Subject)
    (selection : Selection) : Result :=
  match scan disk project selection with
  | .error e => .failed disk e
  | .ok s =>
    { notices :=
        [scanDetail project s,
          .data ((View.ofReport subject s.report).text options.format options.plain)]
      disk }

/-- The file that a command writes, if it writes one. -/
def Command.writes? (project : Project) : Command → Option Path
  | .init _ => some project.settingsPath
  | .generate _ (.file path) => some (project.outputFile path)
  | .generate _ .standardOutput | .inspect _ _ => none

/-- Runs a command. -/
def runCommand (disk : Disk) (cwd : Place) (options : GlobalOptions) (command : Command) : Result :=
  match Project.find disk cwd with
  | .error e => .failed disk (.settings e)
  | .ok project =>
    match command with
    | .init force => runInit disk project force
    | .generate selection target => runGenerate disk project options selection target
    | .inspect subject selection => runInspect disk project options subject selection

/-! ### The program -/

/-- How a run ends. -/
inductive ExitStatus where
  /-- All went well. -/
  | success
  /-- The command failed. -/
  | failure
  /-- The command line is wrong. -/
  | usage
  deriving DecidableEq, Repr

/-- The number that stands for the end of a run. -/
def ExitStatus.code : ExitStatus → Nat
  | success => 0
  | failure => 1
  | usage => 2

/-- What a run leaves behind. -/
structure Outcome where
  /-- How the run ended. -/
  status : ExitStatus
  /-- What it wrote to the standard output. -/
  output : String := ""
  /-- What it wrote to the standard error. -/
  errorOutput : String := ""
  /-- The disk afterwards. -/
  disk : Disk

/-- How the notices of a run are shown. -/
def GlobalOptions.manner (o : GlobalOptions) (colour : Bool) : Manner where
  quiet := o.quiet
  verbose := o.verbose
  plain := o.plain
  colour := colour

/-- What a run with this result leaves behind. -/
def Result.outcome (r : Result) (manner : Manner) : Outcome :=
  let notices := r.notices ++ (r.failure.map fun e ↦ .error e.message).toList
  { status := if r.failure.isSome then .failure else .success
    output := String.join (notices.map manner.output)
    errorOutput := String.join (notices.map manner.errorOutput)
    disk := r.disk }

/-- The version of the program. -/
def versionText : String := "sequelize-erd 0.1.0"

/-- A run of the program. -/
def run (disk : Disk) (cwd : Place) (environment : Terminal.Environment) (arguments : List String) :
    Outcome :=
  let colour := environment.wantsColour
  if arguments.isEmpty then
    { status := .usage, errorOutput := Help.text colour .program false ++ "\n", disk }
  else
    match Arguments.parse arguments with
    | .error e => { status := .usage, errorOutput := e.message ++ "\n", disk }
    | .ok .version => { status := .success, output := versionText ++ "\n", disk }
    | .ok (.help topic full) =>
      { status := .success, output := Help.text colour topic full ++ "\n", disk }
    | .ok (.run options command) =>
      (runCommand disk cwd options command).outcome (options.manner colour)

end SchemaDiagram
