import SchemaDiagram.Proofs.Command.Run
import SchemaDiagram.Proofs.Project

/-!
# Replacing a settings file

A run that is to replace the settings file, where it can be written, leaves a project with the
defaults behind, or it fails and changes nothing. It fails exactly if there is a file that does not
hold settings (`run_init_force`): the project is loaded before its command is run, and the command
does not come to replace the file that keeps the project from being loaded.
-/

namespace SchemaDiagram

open Terminal (Environment)

variable {disk after : Disk} {cwd : Place} {options : GlobalOptions} {arguments : List String}

theorem find_eq (disk : Disk) (cwd : Place) : Project.find disk cwd =
    (Project.loadSettings disk (settingsPathAt disk cwd)).map fun settings ↦
      { root := Project.findRoot disk cwd, settings } := rfl

/-- Where the settings file can be written, it is replaced. -/
theorem runInit_force {project : Project}
    (h : disk.write project.settingsPath (Text.encode ({} : Settings).render) = .ok after) :
    (runInit disk project true).failure = none ∧ (runInit disk project true).disk = after := by
  simp [runInit, Result.after, h]

/-- A project that cannot be loaded makes every command fail, and nothing changes. -/
theorem run_of_loadSettings_error {command : Command} {e : SettingsError}
    (environment : Environment) (hparse : Arguments.parse arguments = .ok (.run options command))
    (h : Project.loadSettings disk (settingsPathAt disk cwd) = .error e) :
    (run disk cwd environment arguments).status = .failure ∧
      (run disk cwd environment arguments).disk = disk := by
  have hfind : Project.find disk cwd = .error e := by
    rw [find_eq, h]
    rfl
  rw [run_of_parse hparse, runCommand_of_error hfind]
  exact ⟨rfl, rfl⟩

/-- A project that can be loaded gets a new settings file. -/
theorem run_init_force_of_loadSettings {settings : Settings} (environment : Environment)
    (hparse : Arguments.parse arguments = .ok (.run options (.init true)))
    (h : Project.loadSettings disk (settingsPathAt disk cwd) = .ok settings)
    (hwrite : disk.write (settingsPathAt disk cwd) (Text.encode ({} : Settings).render) =
      .ok after) :
    (run disk cwd environment arguments).status = .success ∧
      (run disk cwd environment arguments).disk = after := by
  let project : Project := { root := Project.findRoot disk cwd, settings }
  have hfind : Project.find disk cwd = .ok project := by
    rw [find_eq, h]
    rfl
  obtain ⟨hfailure, hdisk⟩ := runInit_force (show disk.write project.settingsPath _ = _ from hwrite)
  rw [run_of_parse hparse, runCommand_of_find hfind, Result.status_outcome_eq_success_iff]
  exact ⟨hfailure, hdisk⟩

/-- **What a run with force does**, where the settings file can be written. It succeeds exactly if
there is no settings file or the one there holds settings. Then the settings that are loaded
afterwards are the defaults; otherwise nothing changes. -/
theorem run_init_force (environment : Environment)
    (hparse : Arguments.parse arguments = .ok (.run options (.init true)))
    (hwrite : disk.write (settingsPathAt disk cwd) (Text.encode ({} : Settings).render) =
      .ok after) :
    let outcome := run disk cwd environment arguments
    (outcome.status = .success ↔ ∀ old, disk.read (settingsPathAt disk cwd) = .ok old →
        Project.HoldsSettings old) ∧
      (outcome.status = .success →
        Project.loadSettings outcome.disk (settingsPathAt disk cwd) = .ok {} ∧
          (Project.find outcome.disk cwd).map Project.settings = .ok {}) ∧
      (outcome.status ≠ .success → outcome.status = .failure ∧ outcome.disk = disk) := by
  intro outcome
  rw [← Project.exists_loadSettings_iff_of_write hwrite]
  cases hload : Project.loadSettings disk (settingsPathAt disk cwd) with
  | error e =>
    obtain ⟨hstatus, hdisk⟩ :
        outcome.status = .failure ∧ outcome.disk = disk :=
      run_of_loadSettings_error environment hparse hload
    rw [hstatus]
    exact ⟨iff_of_false nofun nofun, nofun, fun _ ↦ ⟨rfl, hdisk⟩⟩
  | ok settings =>
    obtain ⟨hstatus, hdisk⟩ : outcome.status = .success ∧ outcome.disk = after :=
      run_init_force_of_loadSettings environment hparse hload hwrite
    rw [hstatus, hdisk]
    refine ⟨iff_of_true rfl ⟨settings, rfl⟩, fun _ ↦ ⟨?_, ?_⟩, fun h ↦ absurd rfl h⟩
    · obtain ⟨place, hplace, hfile, -⟩ := Disk.write_spec hwrite
      exact Project.loadSettings_default (Disk.read_eq_ok_iff.2 ⟨place, hplace, hfile⟩)
    · exact Project.map_settings_find_of_write hwrite

/-! ### A project with a settings file -/

/-- A disk with one project, whose settings file holds the text. -/
def settingsDisk (text : String) : Disk where
  root := .dir [("app", .dir [("sequelize-erd.toml", .file (Text.encode text))])]

theorem resolve_settingsDisk (text : String) :
    (settingsDisk text).resolve "/app/sequelize-erd.toml" =
      .ok (.found ["app", "sequelize-erd.toml"]) := by
  have hsteps : Path.steps "/app/sequelize-erd.toml" = ["app", "sequelize-erd.toml"] := by decide
  have happ : (settingsDisk text).step Disk.maxLinks [] "app" ["sequelize-erd.toml"] =
      .goesOn 40 ["app"] ["sequelize-erd.toml"] := rfl
  have hfile : (settingsDisk text).step 40 ["app"] "sequelize-erd.toml" [] =
      .goesOn 40 ["app", "sequelize-erd.toml"] [] := rfl
  rw [Disk.resolve, if_neg (by decide)]
  simp only [hsteps, Disk.follow_cons, happ, hfile, Disk.follow_nil]

theorem read_settingsDisk (text : String) :
    (settingsDisk text).read "/app/sequelize-erd.toml" = .ok (Text.encode text) := by
  refine Disk.read_eq_ok_iff.2 ⟨["app", "sequelize-erd.toml"], ?_, rfl⟩
  rw [Disk.locate, resolve_settingsDisk]

theorem settingsPathAt_settingsDisk (text : String) :
    settingsPathAt (settingsDisk text) ["app"] = "/app/sequelize-erd.toml" := by
  have hpath : (Place.path ["app"]).join Project.settingsFile = "/app/sequelize-erd.toml" := by
    decide
  have hmarked : Project.isMarked (settingsDisk text) (Place.path ["app"]) = true := by
    rw [Project.isMarked, hpath, Disk.pathExists_of_read (read_settingsDisk text), Bool.true_or]
  have hroot : Project.findRoot (settingsDisk text) ["app"] = Place.path ["app"] := by
    simp [Project.findRoot, Project.markedAbove?, hmarked]
  rw [settingsPathAt, hroot, hpath]

theorem exists_write_settingsDisk (text : String) (bytes : List UInt8) :
    ∃ after, (settingsDisk text).write (settingsPathAt (settingsDisk text) ["app"]) bytes =
      .ok after := by
  have hdirectory : Disk.asksDirectory "/app/sequelize-erd.toml" = false := by decide
  rw [settingsPathAt_settingsDisk, Disk.write, hdirectory, resolve_settingsDisk]
  exact ⟨_, rfl⟩

theorem parse_init_force :
    Arguments.parse ["init", "--force"] = .ok (.run {} (.init true)) := by
  decide +kernel

/-- Settings are replaced. -/
theorem run_init_force_recursive :
    let disk := settingsDisk "[scan]\nrecursive = true\n"
    let outcome := run disk ["app"] {} ["init", "--force"]
    disk.read (settingsPathAt disk ["app"]) = .ok (Text.encode "[scan]\nrecursive = true\n") ∧
      outcome.status = .success ∧
      (Project.find outcome.disk ["app"]).map Project.settings = .ok {} := by
  intro disk outcome
  obtain ⟨after, hwrite⟩ := exists_write_settingsDisk "[scan]\nrecursive = true\n"
    (Text.encode ({} : Settings).render)
  have hread : disk.read (settingsPathAt disk ["app"]) =
      .ok (Text.encode "[scan]\nrecursive = true\n") := by
    rw [settingsPathAt_settingsDisk, read_settingsDisk]
  have hholds : Project.HoldsSettings (Text.encode "[scan]\nrecursive = true\n") :=
    ⟨"[scan]\nrecursive = true\n", { scan := { recursive := true } }, Text.decode?_encode _,
      by decide +kernel⟩
  obtain ⟨hiff, hsuccess, -⟩ := run_init_force {} parse_init_force hwrite
  have hstatus : outcome.status = .success := hiff.2 fun old hold ↦ by
    obtain rfl := Except.ok.inj (hread.symm.trans hold)
    exact hholds
  exact ⟨hread, hstatus, (hsuccess hstatus).2⟩

/-- **A settings file that cannot be parsed is not replaced**, not even with force: it can be
written, and yet the run fails and leaves it as it is. -/
theorem run_init_force_unparsable :
    let disk := settingsDisk "[scan\n"
    let outcome := run disk ["app"] {} ["init", "--force"]
    disk.read (settingsPathAt disk ["app"]) = .ok (Text.encode "[scan\n") ∧
      (∃ after, disk.write (settingsPathAt disk ["app"])
        (Text.encode ({} : Settings).render) = .ok after) ∧
      outcome.status = .failure ∧ outcome.disk = disk := by
  intro disk outcome
  have hread : disk.read (settingsPathAt disk ["app"]) = .ok (Text.encode "[scan\n") := by
    rw [settingsPathAt_settingsDisk, read_settingsDisk]
  have hparse : Settings.parse? "[scan\n" = none := by decide +kernel
  have hload : Project.loadSettings disk (settingsPathAt disk ["app"]) =
      .error (.invalid (settingsPathAt disk ["app"])) := by
    rw [Project.loadSettings_of_read hread, Text.decode?_encode]
    simp only [hparse]
  exact ⟨hread, exists_write_settingsDisk _ _,
    run_of_loadSettings_error {} parse_init_force hload⟩

end SchemaDiagram
