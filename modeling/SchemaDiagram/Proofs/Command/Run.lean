import SchemaDiagram.Command.Run
import SchemaDiagram.Proofs.Command.Arguments
import SchemaDiagram.Proofs.Disk.Change

/-!
# What a run may change

Whatever the disk looks like and whatever is asked for, a run keeps every file but the one that its
command is there to write, and it writes that one only if it ends well (`run_keepsFiles`). What goes
into the file of a diagram is what every command line shows that asks for the same selection on the
standard output.
-/

namespace SchemaDiagram

open Terminal (Manner Environment)

variable {disk : Disk} {cwd : Place} {project : Project} {options : GlobalOptions}
  {selection : Selection}

/-! ### Outcomes -/

theorem Result.status_outcome_eq_success_iff (r : Result) (manner : Manner) :
    (r.outcome manner).status = .success ↔ r.failure = none := by
  cases h : r.failure <;> simp [Result.outcome, h]

/-- The settings file of the project that a working directory belongs to. -/
def settingsPathAt (disk : Disk) (cwd : Place) : Path :=
  (Project.findRoot disk cwd).join Project.settingsFile

theorem settingsPath_of_find (h : Project.find disk cwd = .ok project) :
    project.settingsPath = settingsPathAt disk cwd := by
  change (Project.loadSettings disk (settingsPathAt disk cwd)).map _ = .ok project at h
  cases hload : Project.loadSettings disk (settingsPathAt disk cwd) with
  | error e => rw [hload] at h; cases h
  | ok settings => rw [hload] at h; cases h; rfl

/-! ### Commands that write nothing -/

theorem disk_runInspect (subject : Subject) :
    (runInspect disk project options subject selection).disk = disk := by
  unfold runInspect
  split <;> rfl

theorem runGenerate_standardOutput (disk : Disk) (project : Project) (options : GlobalOptions)
    (selection : Selection) :
    runGenerate disk project options selection .standardOutput =
      match scan disk project selection with
      | .error e => .failed disk e
      | .ok s => { notices := [.document s.report.diagram], disk } := by
  -- the equations of `runGenerate` are slow to make, for they reduce the scan
  delta runGenerate
  generalize scan disk project selection = found
  rfl

theorem runGenerate_file (disk : Disk) (project : Project) (options : GlobalOptions)
    (selection : Selection) (path : Option Path) :
    runGenerate disk project options selection (.file path) =
      generateFile disk project options selection (project.outputFile path) := rfl

theorem disk_runGenerate_standardOutput :
    (runGenerate disk project options selection .standardOutput).disk = disk := by
  rw [runGenerate_standardOutput]
  split <;> rfl

/-- On the standard output nothing but the diagram is shown, in whatever manner. -/
theorem outcome_runGenerate_standardOutput {s : Scan} (h : scan disk project selection = .ok s)
    (manner : Manner) :
    (runGenerate disk project options selection .standardOutput).outcome manner =
      { status := .success, output := s.report.diagram, disk } := by
  simp [runGenerate_standardOutput, h, Result.outcome, Manner.output, Manner.errorOutput,
    String.join]

/-! ### The settings file -/

theorem disk_runInit_of_pathExists (h : disk.pathExists project.settingsPath) :
    (runInit disk project false).disk = disk := by
  simp [runInit, h, Result.after]

theorem Disk.locate_of_pathExists {path : Path} (h : disk.pathExists path) :
    ∃ place, disk.locate path = .ok place := by
  unfold pathExists node? at h
  cases hplace : disk.locate path with
  | ok place => exact ⟨place, rfl⟩
  | error e => simp [hplace, Except.toOption] at h

/-- The settings file is all that changes, and nothing does if it cannot be written. -/
theorem runInit_spec (disk : Disk) (project : Project) (force : Bool) :
    let r := runInit disk project force
    (r.failure ≠ none → r.disk = disk) ∧
      (r.failure = none → ∃ place, r.disk.locate project.settingsPath = .ok place ∧
        ∀ other, other ≠ place → r.disk.bareAt? other = disk.bareAt? other) := by
  intro r
  unfold r runInit
  simp only [Result.after]
  split
  · rename_i hkept
    obtain ⟨place, hplace⟩ := Disk.locate_of_pathExists (Bool.and_eq_true_iff.1 hkept).1
    exact ⟨fun _ ↦ rfl, fun _ ↦ ⟨place, hplace, fun _ _ ↦ rfl⟩⟩
  · split
    · exact ⟨fun _ ↦ rfl, nofun⟩
    · rename_i after hwrite
      obtain ⟨place, hplace, -, hother⟩ := Disk.write_spec hwrite
      exact ⟨fun h ↦ absurd rfl h, fun _ ↦ ⟨place, hplace, hother⟩⟩

/-! ### The file of the diagram -/

/-- The directories on the way to a file are made first. -/
def makeParents (disk : Disk) (path : Path) : Disk × Option CommandError :=
  match Path.parent? path with
  | none => (disk, none)
  | some parent =>
    let (disk, failure) := disk.makeDirectories parent
    (disk, failure.map (CommandError.create parent))

theorem writeOutput_eq (disk : Disk) (path : Path) (text : String) :
    writeOutput disk path text =
      match makeParents disk path with
      | (disk, some e) => (disk, some e)
      | (disk, none) =>
        match disk.write path (Text.encode text) with
        | .ok disk => (disk, none)
        | .error e => (disk, some (.write path e)) := by
  unfold writeOutput makeParents
  cases Path.parent? path with
  | none => rfl
  | some parent =>
    simp only
    rcases disk.makeDirectories parent with ⟨middle, _ | e⟩ <;> rfl

theorem grows_makeParents (disk : Disk) (path : Path) :
    disk.Grows (makeParents disk path).1 [] := by
  unfold makeParents
  split
  · exact Disk.Grows.refl disk []
  · rename_i parent _
    exact Disk.grows_makeDirectories disk parent

/-- What writing a text to a file leaves behind: directories on the way, and the file unless the
writing fails. -/
theorem writeOutput_spec {after : Disk} {path : Path} {text : String}
    {failure : Option CommandError} (h : writeOutput disk path text = (after, failure)) :
    (failure ≠ none → disk.Grows after []) ∧
      (failure = none → ∃ place, after.locate path = .ok place ∧
        (∀ old, disk.locate path = .ok old → old = place) ∧ disk.Grows after [place] ∧
        after.at? place = some (.file (Text.encode text))) := by
  have hparents := grows_makeParents disk path
  rw [writeOutput_eq] at h
  generalize makeParents disk path = parents at hparents h
  obtain ⟨middle, failure'⟩ := parents
  cases failure' with
  | some e =>
    cases h
    exact ⟨fun _ ↦ hparents, nofun⟩
  | none =>
    simp only at h hparents
    cases hwrite : middle.write path (Text.encode text) with
    | error e =>
      rw [hwrite] at h
      cases h
      exact ⟨fun _ ↦ hparents, nofun⟩
    | ok written =>
      rw [hwrite] at h
      cases h
      obtain ⟨place, hplace, hfile, -⟩ := Disk.write_spec hwrite
      -- first directories come to the disk, then the file does
      have hgrows : disk.Grows after [place] :=
        (hparents.mono (List.nil_subset _)).trans (Disk.Grows.write hplace hwrite)
      refine ⟨fun h ↦ absurd rfl h, fun _ ↦ ⟨place, hplace, fun old hold ↦ ?_, hgrows, hfile⟩⟩
      have hmiddle := Disk.locate_of_extends hparents.extends hold
      have hafter := Disk.locate_of_extends (Disk.extends_of_write hwrite) hmiddle
      exact Except.ok.inj (hafter.symm.trans hplace)

/-- The file is written after the sources were read, and holds their diagram. -/
theorem writeOutput_of_generateFile (options : GlobalOptions) (output : Path) {s : Scan}
    (h : scan disk project selection = .ok s) :
    let r := generateFile disk project options selection output
    writeOutput disk output s.report.diagram = (r.disk, r.failure) := by
  simp only [generateFile, Result.after, h]
  rcases writeOutput disk output s.report.diagram with ⟨after, _ | e⟩ <;> rfl

theorem generateFile_of_error (options : GlobalOptions) (output : Path) {e : CommandError}
    (h : scan disk project selection = .error e) :
    let r := generateFile disk project options selection output
    r.disk = disk ∧ r.failure = some e := by
  simp [generateFile, Result.after, h, Result.failed]

/-- Without the sources nothing changes, and behind them at most the file does. -/
theorem generateFile_spec (disk : Disk) (project : Project) (options : GlobalOptions)
    (selection : Selection) (output : Path) :
    let r := generateFile disk project options selection output
    (r.failure ≠ none → disk.Grows r.disk []) ∧
      (r.failure = none → ∃ s place, scan disk project selection = .ok s ∧
        r.disk.locate output = .ok place ∧
        (∀ old, disk.locate output = .ok old → old = place) ∧ disk.Grows r.disk [place] ∧
        r.disk.at? place = some (.file (Text.encode s.report.diagram))) := by
  intro r
  cases hscan : scan disk project selection with
  | error e =>
    obtain ⟨hdisk, hfailure⟩ := generateFile_of_error options output hscan
    rw [show r.disk = disk from hdisk, show r.failure = some e from hfailure]
    exact ⟨fun _ ↦ Disk.Grows.refl disk [], nofun⟩
  | ok s =>
    obtain ⟨hfailed, hwritten⟩ :=
      writeOutput_spec (writeOutput_of_generateFile options output hscan)
    refine ⟨hfailed, fun h ↦ ?_⟩
    obtain ⟨place, hplace⟩ := hwritten h
    exact ⟨s, place, rfl, hplace⟩

/-! ### Runs -/

/-- A run of a command is what its command line asks for. -/
theorem run_of_parse {environment : Environment} {arguments : List String} {command : Command}
    (h : Arguments.parse arguments = .ok (.run options command)) :
    run disk cwd environment arguments =
      (runCommand disk cwd options command).outcome (options.manner environment.wantsColour) := by
  cases arguments with
  | nil => cases h
  | cons argument arguments => simp [run, h]

theorem runCommand_of_find (h : Project.find disk cwd = .ok project) (command : Command) :
    runCommand disk cwd options command =
      match command with
      | .init force => runInit disk project force
      | .generate selection target => runGenerate disk project options selection target
      | .inspect subject selection => runInspect disk project options subject selection := by
  delta runCommand
  generalize Project.find disk cwd = found at h ⊢
  subst h
  rfl

theorem runCommand_of_error {e : SettingsError} (h : Project.find disk cwd = .error e)
    (command : Command) : runCommand disk cwd options command = .failed disk (.settings e) := by
  delta runCommand
  generalize Project.find disk cwd = found at h ⊢
  subst h
  rfl

/-- What a run of a command may have done to the files. -/
def Command.KeepsFiles (disk : Disk) (cwd : Place) (outcome : Outcome) : Command → Prop
  | inspect _ _ | generate _ .standardOutput => outcome.disk = disk
  | init force =>
    (force = false → disk.pathExists (settingsPathAt disk cwd) → outcome.disk = disk) ∧
      (outcome.status = .success →
        ∃ place, outcome.disk.locate (settingsPathAt disk cwd) = .ok place ∧
          ∀ other, other ≠ place → outcome.disk.bareAt? other = disk.bareAt? other)
  | generate selection (.file path) =>
    outcome.status = .success →
      ∃ project place, Project.find disk cwd = .ok project ∧
        outcome.disk.locate (project.outputFile path) = .ok place ∧
        (∀ old, disk.locate (project.outputFile path) = .ok old → old = place) ∧
        disk.Grows outcome.disk [place] ∧
        (∃ arguments, Arguments.Shows arguments selection) ∧
        ∀ environment arguments, Arguments.Shows arguments selection →
          let shown := run disk cwd environment arguments
          shown.status = .success ∧
            outcome.disk.at? place = some (.file (Text.encode shown.output))

/-- A command that fails at once keeps everything. -/
theorem Command.keepsFiles_of_disk_eq {outcome : Outcome} (hdisk : outcome.disk = disk)
    (hstatus : outcome.status ≠ .success) (command : Command) :
    command.KeepsFiles disk cwd outcome := by
  match command with
  | inspect _ _ => exact hdisk
  | generate _ .standardOutput => exact hdisk
  | init _ => exact ⟨fun _ _ ↦ hdisk, fun h ↦ absurd h hstatus⟩
  | generate _ (.file _) => exact fun h ↦ absurd h hstatus

theorem keepsFiles_init (hfind : Project.find disk cwd = .ok project) (force : Bool)
    (manner : Manner) :
    (Command.init force).KeepsFiles disk cwd ((runInit disk project force).outcome manner) := by
  have hpath := settingsPath_of_find hfind
  refine ⟨?_, fun h ↦ ?_⟩
  · rintro rfl hexists
    rw [← hpath] at hexists
    exact disk_runInit_of_pathExists hexists
  · rw [← hpath]
    exact (runInit_spec disk project force).2 ((Result.status_outcome_eq_success_iff _ _).1 h)

/-- The file holds what the standard output would have shown. -/
theorem keepsFiles_generate_file (hfind : Project.find disk cwd = .ok project)
    (hshows : ∃ arguments, Arguments.Shows arguments selection) (options : GlobalOptions)
    (path : Option Path) (manner : Manner) :
    (Command.generate selection (.file path)).KeepsFiles disk cwd
      ((runGenerate disk project options selection (.file path)).outcome manner) := by
  rw [runGenerate_file]
  intro hsuccess
  obtain ⟨s, place, hscan, hplace, hold, hgrows, hfile⟩ :=
    (generateFile_spec disk project options selection (project.outputFile path)).2
      ((Result.status_outcome_eq_success_iff _ _).1 hsuccess)
  refine ⟨project, place, hfind, hplace, hold, hgrows, hshows, ?_⟩
  rintro environment arguments ⟨options', hparse⟩ shown
  have hshown : shown = { status := .success, output := s.report.diagram, disk } := by
    rw [show shown = run disk cwd environment arguments from rfl, run_of_parse hparse,
      runCommand_of_find hfind]
    exact outcome_runGenerate_standardOutput hscan _
  rw [hshown]
  exact ⟨rfl, hfile⟩

/-- Whatever a command does, it does nothing but make directories if it fails. -/
theorem grows_of_failure {command : Command}
    (h : (runCommand disk cwd options command).failure ≠ none) :
    disk.Grows (runCommand disk cwd options command).disk [] := by
  have hsame : ∀ {r : Result}, r.disk = disk → disk.Grows r.disk [] :=
    fun hdisk ↦ hdisk ▸ Disk.Grows.refl disk []
  cases hfind : Project.find disk cwd with
  | error e => rw [runCommand_of_error hfind]; exact hsame rfl
  | ok project =>
    rw [runCommand_of_find hfind] at h ⊢
    match command with
    | .init force => exact hsame ((runInit_spec disk project force).1 h)
    | .generate selection .standardOutput => exact hsame disk_runGenerate_standardOutput
    | .generate selection (.file path) =>
      exact (generateFile_spec disk project options selection (project.outputFile path)).1 h
    | .inspect subject selection => exact hsame (disk_runInspect subject)

theorem runCommand_keepsFiles {arguments : List String} {command : Command}
    (hparse : Arguments.parse arguments = .ok (.run options command)) (manner : Manner) :
    command.KeepsFiles disk cwd ((runCommand disk cwd options command).outcome manner) := by
  cases hfind : Project.find disk cwd with
  | error e =>
    rw [runCommand_of_error hfind]
    exact Command.keepsFiles_of_disk_eq rfl (by simp [Result.outcome, Result.failed]) _
  | ok project =>
    rw [runCommand_of_find hfind]
    match command with
    | .init force => exact keepsFiles_init hfind force manner
    | .generate selection .standardOutput => exact disk_runGenerate_standardOutput
    | .generate selection (.file path) =>
      have hshows := Arguments.exists_shows_of_parse hparse
      exact keepsFiles_generate_file hfind hshows options path manner
    | .inspect subject selection => exact disk_runInspect subject

/-- Nothing changes unless a command is asked for. -/
theorem disk_run_of_parse_ne {environment : Environment} {arguments : List String}
    (h : ∀ options command, Arguments.parse arguments ≠ .ok (.run options command)) :
    (run disk cwd environment arguments).disk = disk := by
  cases arguments with
  | nil => rfl
  | cons argument arguments =>
    simp only [run, List.isEmpty_cons, Bool.false_eq_true, if_false]
    split
    · rfl
    · rfl
    · rfl
    · rename_i options command hparse
      exact absurd hparse (h options command)

/-- **A run keeps all files but the one that its command writes.** A run that does not end well
keeps them all (`Disk.Grows.at?_eq_file`), and so does one that is not asked to run a command. -/
theorem run_keepsFiles (disk : Disk) (cwd : Place) (environment : Environment)
    (arguments : List String) :
    let outcome := run disk cwd environment arguments
    (outcome.status ≠ .success → disk.Grows outcome.disk []) ∧
      match Arguments.parse arguments with
      | .ok (.run _ command) => command.KeepsFiles disk cwd outcome
      | _ => outcome.disk = disk := by
  intro outcome
  split
  · rename_i options command hparse
    rw [show outcome = _ from run_of_parse hparse]
    refine ⟨fun h ↦ grows_of_failure fun hnone ↦ h ?_, runCommand_keepsFiles hparse _⟩
    exact (Result.status_outcome_eq_success_iff _ _).2 hnone
  · rename_i hparse
    have hdisk : outcome.disk = disk := disk_run_of_parse_ne hparse
    exact ⟨fun _ ↦ hdisk ▸ Disk.Grows.refl disk [], hdisk⟩

end SchemaDiagram
