import SchemaDiagram.Proofs.Command.Run
import SchemaDiagram.Proofs.Project

/-!
# The working directory within a project

The search for the project goes up from the working directory and ends at the first directory that
is marked. From all directories between two marked ones it ends at the same one (`findRoot_append`).
The rest of a run sees every path from there, whether the settings or the command line give it, and
the working directory tells it nothing more (`run_congr`). So it does not matter from which of these
directories the program is started (`run_append`).
-/

namespace SchemaDiagram

open Terminal (Environment)

variable {disk : Disk} {root below place : Place} {name : String}

namespace Project

/-- No directory on the way down is marked, the last one included. -/
def NoneMarkedBelow (disk : Disk) (root below : Place) : Prop :=
  ∀ way, way ≠ [] → way <+: below → isMarked disk (root ++ way).path = false

theorem markedAbove?_of_isMarked (h : isMarked disk place.path = true) :
    markedAbove? disk place.reverse = some place.path := by
  rcases hnames : place.reverse with - | ⟨name, above⟩
  · obtain rfl : place = [] := List.reverse_eq_nil_iff.1 hnames
    rw [markedAbove?, if_pos h]
  · obtain rfl : (name :: above).reverse = place := by rw [← hnames, List.reverse_reverse]
    rw [markedAbove?, if_pos h]

/-- From a directory that is not marked the search goes one level up. -/
theorem markedAbove?_concat (h : isMarked disk (Place.path (place ++ [name])) = false) :
    markedAbove? disk (place ++ [name]).reverse = markedAbove? disk place.reverse := by
  have hplace : (name :: place.reverse).reverse = place ++ [name] := by
    rw [List.reverse_cons, List.reverse_reverse]
  rw [List.reverse_append, List.reverse_singleton, List.singleton_append, markedAbove?, hplace]
  simp only [h, Bool.false_eq_true, if_false]

theorem markedAbove?_append (hbelow : NoneMarkedBelow disk root below) :
    markedAbove? disk (root ++ below).reverse = markedAbove? disk root.reverse := by
  induction below using List.reverseRecOn with
  | nil => rw [List.append_nil]
  | append_singleton below name ih =>
    have hlast := hbelow (below ++ [name]) (List.concat_ne_nil name below) List.prefix_rfl
    rw [← List.append_assoc] at hlast ⊢
    rw [markedAbove?_concat hlast]
    exact ih fun way hne hway ↦ hbelow way hne (hway.trans (List.prefix_append below [name]))

/-- **The search ends at the same directory** from wherever it starts within a project. -/
theorem findRoot_append (hroot : isMarked disk root.path = true)
    (hbelow : NoneMarkedBelow disk root below) : findRoot disk (root ++ below) = root.path := by
  rw [findRoot, markedAbove?_append hbelow, markedAbove?_of_isMarked hroot, Option.getD_some]

end Project

/-- A run depends on its working directory only by the project that it belongs to. -/
theorem run_congr {cwd cwd' : Place}
    (h : Project.findRoot disk cwd = Project.findRoot disk cwd') (environment : Environment)
    (arguments : List String) :
    run disk cwd environment arguments = run disk cwd' environment arguments := by
  have hfind : Project.find disk cwd = Project.find disk cwd' := by
    rw [Project.find, Project.find, h]
  have hcommand (options : GlobalOptions) (command : Command) :
      runCommand disk cwd options command = runCommand disk cwd' options command := by
    unfold runCommand
    rw [hfind]
  simp only [run, hcommand]

/-- **Within a project the working directory does not matter.** From any two directories with the
same project above them, every command line leads to the same exit status, the same output and the
same disk. -/
theorem run_append {first second : Place} (hroot : Project.isMarked disk root.path = true)
    (hfirst : Project.NoneMarkedBelow disk root first)
    (hsecond : Project.NoneMarkedBelow disk root second) (environment : Environment)
    (arguments : List String) :
    run disk (root ++ first) environment arguments =
      run disk (root ++ second) environment arguments :=
  run_congr ((Project.findRoot_append hroot hfirst).trans
    (Project.findRoot_append hroot hsecond).symm) environment arguments

/-! ### A project with directories -/

/-- A disk with one project, which has directories two levels down. -/
def nestedDisk : Disk where
  root := .dir [("app", .dir [("package.json", .file []),
    ("src", .dir [("models", .dir [("user.ts", .file [])])])])]

theorem follow_src (rest : List String) :
    nestedDisk.follow Disk.maxLinks [] ("app" :: "src" :: rest) =
      nestedDisk.follow 40 ["app", "src"] rest := by
  have happ : nestedDisk.step Disk.maxLinks [] "app" ("src" :: rest) =
      .goesOn 40 ["app"] ("src" :: rest) := rfl
  have hsrc : nestedDisk.step 40 ["app"] "src" rest = .goesOn 40 ["app", "src"] rest := rfl
  simp only [Disk.follow_cons, happ, hsrc]

theorem follow_srcModels (rest : List String) :
    nestedDisk.follow 40 ["app", "src"] ("models" :: rest) =
      nestedDisk.follow 40 ["app", "src", "models"] rest := by
  have hmodels : nestedDisk.step 40 ["app", "src"] "models" rest =
      .goesOn 40 ["app", "src", "models"] rest := rfl
  rw [Disk.follow_cons, hmodels]

theorem pathExists_of_follow_free {path : Path} (hlength : path.utf8ByteSize < Disk.maxPathBytes)
    (h : disk.follow Disk.maxLinks [] path.steps = .ok (.free place)) :
    disk.pathExists path = false := by
  have hlocate : disk.locate path = .error .notFound := by
    rw [Disk.locate, Disk.resolve, if_neg (Nat.not_le.2 hlength), h]
  rw [Disk.pathExists, Disk.node?, hlocate]
  rfl

theorem isMarked_app : Project.isMarked nestedDisk (Place.path ["app"]) = true := by
  have hpath : (Place.path ["app"]).join Project.manifestFile = "/app/package.json" := by decide
  have hsteps : Path.steps "/app/package.json" = ["app", "package.json"] := by decide
  have happ : nestedDisk.step Disk.maxLinks [] "app" ["package.json"] =
      .goesOn 40 ["app"] ["package.json"] := rfl
  have hfile : nestedDisk.step 40 ["app"] "package.json" [] =
      .goesOn 40 ["app", "package.json"] [] := rfl
  have hlocate : nestedDisk.locate "/app/package.json" = .ok ["app", "package.json"] := by
    refine Disk.locate_of_follow (by decide) ?_
    simp only [hsteps, Disk.follow_cons, happ, hfile, Disk.follow_nil]
  have hexists : nestedDisk.pathExists "/app/package.json" = true :=
    Disk.pathExists_iff.2 ⟨_, hlocate, rfl⟩
  simp only [Project.isMarked, hpath, hexists, Bool.or_true]

/-- A directory of this disk is not marked if there is neither of the two files in it. -/
theorem isMarked_nestedDisk
    (hfollow : ∀ rest, nestedDisk.follow Disk.maxLinks [] (place ++ rest) =
      nestedDisk.follow 40 place rest)
    (hlength : ∀ file ∈ [Project.settingsFile, Project.manifestFile],
      (place.path.join file).utf8ByteSize < Disk.maxPathBytes ∧
        (place.path.join file).steps = place ++ [file])
    (hfree : ∀ file ∈ [Project.settingsFile, Project.manifestFile],
      nestedDisk.step 40 place file [] = .ends (.ok (.free (place ++ [file])))) :
    Project.isMarked nestedDisk place.path = false := by
  have hnone : ∀ file ∈ [Project.settingsFile, Project.manifestFile],
      nestedDisk.pathExists (place.path.join file) = false := by
    intro file hfile
    obtain ⟨hshort, hsteps⟩ := hlength file hfile
    have hend : nestedDisk.follow Disk.maxLinks [] (place.path.join file).steps =
        .ok (.free (place ++ [file])) := by
      rw [hsteps, hfollow, Disk.follow_cons, hfree file hfile]
    exact pathExists_of_follow_free hshort hend
  rw [Project.isMarked, hnone Project.settingsFile (by simp), hnone Project.manifestFile (by simp),
    Bool.or_false]

theorem isMarked_src : Project.isMarked nestedDisk (Place.path ["app", "src"]) = false := by
  refine isMarked_nestedDisk follow_src (by decide) fun file hfile ↦ ?_
  simp only [List.mem_cons, List.not_mem_nil, or_false] at hfile
  rcases hfile with rfl | rfl <;> rfl

theorem isMarked_srcModels :
    Project.isMarked nestedDisk (Place.path ["app", "src", "models"]) = false := by
  refine isMarked_nestedDisk (fun rest ↦ ?_) (by decide) fun file hfile ↦ ?_
  · exact (follow_src ("models" :: rest)).trans (follow_srcModels rest)
  · simp only [List.mem_cons, List.not_mem_nil, or_false] at hfile
    rcases hfile with rfl | rfl <;> rfl

theorem noneMarkedBelow_srcModels :
    Project.NoneMarkedBelow nestedDisk ["app"] ["src", "models"] := by
  rintro way hne ⟨rest, hway⟩
  rcases way with - | ⟨first, - | ⟨second, way⟩⟩
  · exact absurd rfl hne
  · obtain ⟨rfl, -⟩ := List.cons.inj hway
    exact isMarked_src
  · simp only [List.cons_append, List.cons.injEq, List.append_eq_nil_iff] at hway
    obtain ⟨rfl, rfl, rfl, -⟩ := hway
    exact isMarked_srcModels

/-- A diagram is made from two directories of the project; the paths on the command line are seen
from neither. -/
theorem run_append_srcModels :
    let arguments := ["generate", "--models-dir", "src/models", "--out", "docs/erd.mmd"]
    Project.isMarked nestedDisk (Place.path ["app"]) = true ∧
      Project.NoneMarkedBelow nestedDisk ["app"] [] ∧
      Project.NoneMarkedBelow nestedDisk ["app"] ["src", "models"] ∧
      run nestedDisk ["app"] {} arguments = run nestedDisk ["app", "src", "models"] {} arguments :=
  have hnone : Project.NoneMarkedBelow nestedDisk ["app"] [] :=
    fun _ hne hway ↦ absurd (List.prefix_nil.1 hway) hne
  ⟨isMarked_app, hnone, noneMarkedBelow_srcModels,
    run_append isMarked_app hnone noneMarkedBelow_srcModels {} _⟩

end SchemaDiagram
