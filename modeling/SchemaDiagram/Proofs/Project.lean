import SchemaDiagram.Project
import SchemaDiagram.Proofs.Disk.Change
import SchemaDiagram.Proofs.Disk.Entry
import SchemaDiagram.Proofs.Text.Utf8

/-!
# Projects on a disk that changes

The directory of a project is the first marked one among the working directory and those above it
(`findRoot_eq`). A directory that is marked stays marked when a file is written, but another one may
become marked, for the file may be what a link in it was waiting for. Even so, a project whose
settings file was written with the defaults has the defaults (`map_settings_find_of_write`): its
settings are read from that file, or they are read where no settings file has ever been.
-/

namespace SchemaDiagram

variable {disk after : Disk} {cwd : Place} {path : Path}

namespace Disk

theorem pathExists_iff : disk.pathExists path = true ↔
    ∃ place, disk.locate path = .ok place ∧ (disk.outlineAt? place).isSome = true := by
  rw [pathExists, node?]
  cases hplace : disk.locate path with
  | error e => simp [Except.toOption]
  | ok place => simp [Except.toOption, outlineAt?]

theorem pathExists_of_read {bytes : List UInt8} (h : disk.read path = .ok bytes) :
    disk.pathExists path = true := by
  obtain ⟨place, hplace, hfile⟩ := read_eq_ok_iff.1 h
  exact pathExists_iff.2 ⟨place, hplace, by rw [outlineAt?, hfile]; rfl⟩

theorem pathExists_of_extends (h : after.Extends disk) (hexists : disk.pathExists path = true) :
    after.pathExists path = true := by
  obtain ⟨place, hplace, hnode⟩ := pathExists_iff.1 hexists
  obtain ⟨node, hnode⟩ := Option.isSome_iff_exists.1 hnode
  exact pathExists_iff.2 ⟨place, locate_of_extends h hplace, by rw [h place node hnode]; rfl⟩

/-- Where a file can be written, there is a file if there is anything. -/
theorem exists_read_of_write {bytes : List UInt8} (h : disk.write path bytes = .ok after)
    (hexists : disk.pathExists path = true) : ∃ old, disk.read path = .ok old := by
  obtain ⟨place, hplace, hnode⟩ := pathExists_iff.1 hexists
  obtain ⟨written, hwritten, -, hat⟩ := exists_isWrittenAt_of_write h
  obtain rfl : written = place :=
    Except.ok.inj (hwritten.symm.trans (locate_of_extends (extends_of_write h) hplace))
  obtain ⟨node, hnode⟩ := Option.isSome_iff_exists.1 hnode
  obtain rfl := hat.eq_file_before node hnode
  unfold outlineAt? at hnode
  rcases hold : disk.at? written with _ | old | _ | _ <;> simp_all [Node.outline]
  exact ⟨old, read_eq_ok_iff.2 ⟨written, hplace, hold⟩⟩

end Disk

namespace Project

/-! ### The directory of a project -/

/-- The directories on the way up to the root, given the names from the lowest one. -/
def dirsAbove : List String → List Path
  | [] => [Place.path []]
  | name :: above => Place.path (name :: above).reverse :: dirsAbove above

theorem markedAbove?_eq (disk : Disk) (names : List String) :
    markedAbove? disk names = (dirsAbove names).find? (isMarked disk) := by
  induction names with
  | nil => rw [markedAbove?, dirsAbove, List.find?_singleton]
  | cons name above ih =>
    rw [markedAbove?, dirsAbove, List.find?_cons]
    cases hmarked : isMarked disk (Place.path (name :: above).reverse)
    · simpa [hmarked] using ih
    · simp

theorem findRoot_eq (disk : Disk) (cwd : Place) : findRoot disk cwd =
    ((dirsAbove cwd.reverse).find? (isMarked disk)).getD cwd.path := by
  rw [findRoot, markedAbove?_eq]

theorem path_mem_dirsAbove (cwd : Place) : cwd.path ∈ dirsAbove cwd.reverse := by
  rcases hnames : cwd.reverse with - | ⟨name, above⟩
  · obtain rfl : cwd = [] := List.reverse_eq_nil_iff.1 hnames
    exact List.mem_singleton_self _
  · obtain rfl : (name :: above).reverse = cwd := by rw [← hnames, List.reverse_reverse]
    exact List.mem_cons_self

theorem findRoot_mem_dirsAbove (disk : Disk) (cwd : Place) :
    findRoot disk cwd ∈ dirsAbove cwd.reverse := by
  rw [findRoot_eq]
  rcases hfind : (dirsAbove cwd.reverse).find? (isMarked disk) with - | dir
  · exact path_mem_dirsAbove cwd
  · exact List.mem_of_find?_eq_some hfind

theorem isMarked_of_extends (h : after.Extends disk) {dir : Path}
    (hdir : isMarked disk dir = true) : isMarked after dir = true := by
  rw [isMarked, Bool.or_eq_true] at hdir ⊢
  exact hdir.imp (Disk.pathExists_of_extends h) (Disk.pathExists_of_extends h)

/-- A directory that comes first when more are marked came first before, if it was marked. -/
theorem findRoot_eq_of_isMarked (h : after.Extends disk)
    (hmarked : isMarked disk (findRoot after cwd) = true) :
    findRoot disk cwd = findRoot after cwd := by
  have hafter := isMarked_of_extends h hmarked
  have hmem := findRoot_mem_dirsAbove after cwd
  rcases hfind : (dirsAbove cwd.reverse).find? (isMarked after) with - | dir
  · exact absurd hafter (List.find?_eq_none.1 hfind _ hmem)
  · have hroot : findRoot after cwd = dir := by rw [findRoot_eq, hfind, Option.getD_some]
    obtain ⟨-, front, behind, hdirs, hfront⟩ := List.find?_eq_some_iff_append.1 hfind
    rw [hroot] at hmarked ⊢
    have hfirst : (dirsAbove cwd.reverse).find? (isMarked disk) = some dir := by
      refine List.find?_eq_some_iff_append.2 ⟨hmarked, front, behind, hdirs, fun other hother ↦ ?_⟩
      rw [Bool.not_eq_true']
      by_contra hne
      have := hfront other hother
      rw [isMarked_of_extends h (by simpa using hne)] at this
      exact absurd this (by decide)
    rw [findRoot_eq, hfirst, Option.getD_some]

/-! ### Loading settings -/

/-- The bytes of a file are settings. -/
def HoldsSettings (bytes : List UInt8) : Prop :=
  ∃ text settings, Text.decode? bytes = some text ∧ Settings.parse? text = some settings

theorem loadSettings_of_not_pathExists (h : disk.pathExists path ≠ true) :
    loadSettings disk path = .ok {} := by
  rw [loadSettings, if_neg h]

theorem loadSettings_of_read {bytes : List UInt8} (h : disk.read path = .ok bytes) :
    loadSettings disk path =
      match Text.decode? bytes with
      | none => .error (.notUtf8 path)
      | some text =>
        match Settings.parse? text with
        | none => .error (.invalid path)
        | some settings => .ok settings := by
  rw [loadSettings, if_pos (Disk.pathExists_of_read h)]
  generalize disk.read path = contents at h ⊢
  subst h
  rfl

theorem exists_loadSettings_iff_of_read {bytes : List UInt8} (h : disk.read path = .ok bytes) :
    (∃ settings, loadSettings disk path = .ok settings) ↔ HoldsSettings bytes := by
  rw [loadSettings_of_read h, HoldsSettings]
  cases hdecode : Text.decode? bytes with
  | none => simp
  | some text => cases hparse : Settings.parse? text <;> simp [hparse]

/-- Where a settings file can be written, the settings can be loaded unless there is a file that
does not hold any. -/
theorem exists_loadSettings_iff_of_write {bytes : List UInt8}
    (h : disk.write path bytes = .ok after) :
    (∃ settings, loadSettings disk path = .ok settings) ↔
      ∀ old, disk.read path = .ok old → HoldsSettings old := by
  by_cases hexists : disk.pathExists path = true
  · obtain ⟨old, hread⟩ := Disk.exists_read_of_write h hexists
    rw [exists_loadSettings_iff_of_read hread]
    refine ⟨fun hholds other hother ↦ ?_, fun hall ↦ hall old hread⟩
    obtain rfl : old = other := Except.ok.inj (hread.symm.trans hother)
    exact hholds
  · refine iff_of_true ⟨{}, loadSettings_of_not_pathExists hexists⟩ fun old hread ↦ ?_
    exact absurd (Disk.pathExists_of_read hread) hexists

/-- The defaults are read back as they are written. -/
theorem loadSettings_default (h : disk.read path = .ok (Text.encode ({} : Settings).render)) :
    loadSettings disk path = .ok {} := by
  have hparse : Settings.parse? ({} : Settings).render = some {} := by decide +kernel
  rw [loadSettings_of_read h, Text.decode?_encode]
  simp only [hparse]

/-- **A project whose settings file was written with the defaults has the defaults**, even if the
written file makes another directory the project's. -/
theorem map_settings_find_of_write
    (h : disk.write ((findRoot disk cwd).join settingsFile) (Text.encode ({} : Settings).render) =
      .ok after) : (find after cwd).map settings = .ok {} := by
  have hload : loadSettings after ((findRoot after cwd).join settingsFile) = .ok {} := by
    by_cases hexists : after.pathExists ((findRoot after cwd).join settingsFile) = true
    · obtain ⟨written, hwritten, hfile, hat⟩ := Disk.exists_isWrittenAt_of_write h
      obtain ⟨place, hplace, hnode⟩ := Disk.pathExists_iff.1 hexists
      have hread : after.locate ((findRoot after cwd).join settingsFile) = .ok written := by
        by_cases heq : place = written
        · rw [hplace, heq]
        · -- the file was there before, so its directory was marked and is the same
          have hbefore := (hat.locate_eq hplace).resolve_left heq
          rw [hat.outlineAt?_eq place heq] at hnode
          have hmarked : isMarked disk (findRoot after cwd) = true := by
            rw [isMarked, Disk.pathExists_iff.2 ⟨place, hbefore, hnode⟩, Bool.true_or]
          rwa [findRoot_eq_of_isMarked (Disk.extends_of_write h) hmarked] at hwritten
      exact loadSettings_default (Disk.read_eq_ok_iff.2 ⟨written, hread, hfile⟩)
    · exact loadSettings_of_not_pathExists hexists
  rw [find, hload]
  rfl

end Project

end SchemaDiagram
