import SchemaDiagram.Proofs.Disk.Tree
import SchemaDiagram.Proofs.SourceFile.Source

/-!
# The walk of a tree without links

In a tree without links the path of each entry leads to the entry, if the disk accepts it
(`locate_join_of_isPlain`). So the walk finds the files that are sources, if it can open all that it
has to (`walk_walkDepth_eq_ok`). A single path that is too long ends it, wherever the walk comes to
it (`walk_walkDepth_eq_error`).
-/

namespace SchemaDiagram

open Node (IsName)

variable {disk : Disk} {settings : ScanSettings}

/-! ### The sources of a tree -/

/-- The source that the walk makes of a file at a place below a directory or an entry; `last` is the
name of the entry. -/
def sourceBelow (path relative : Path) (last : String) (file : Place × List UInt8) :
    SourceFile where
  path := file.1.foldl Path.join path
  relativePath := file.1.foldl entryRelative relative
  name := file.1.getLastD last
  text := Text.decodeLossy file.2

theorem sourceBelow_underEntry (path relative : Path) (last name : String)
    (file : Place × List UInt8) : sourceBelow path relative last (Node.underEntry name file) =
      sourceBelow (path.join name) (entryRelative relative name) name file := by
  simp only [sourceBelow, Node.underEntry, List.foldl_cons, List.getLastD_cons]

/-- The sources that the walk finds below a directory. -/
def sourcesBelow (settings : ScanSettings) (path relative : Path) (last : String) (tree : Node) :
    List SourceFile :=
  (tree.files.filter fun file ↦ settings.keeps file.1).map (sourceBelow path relative last)

/-- What an entry adds to the sources of its directory. -/
def sourcesOfEntry (settings : ScanSettings) (path relative : Path) (entry : String × Node) :
    List SourceFile :=
  (entry.2.files.filter fun file ↦ settings.keeps (entry.1 :: file.1)).map
    (sourceBelow (path.join entry.1) (entryRelative relative entry.1) entry.1)

theorem sourcesBelow_dir (settings : ScanSettings) (path relative : Path) (last : String)
    (entries : List (String × Node)) : sourcesBelow settings path relative last (.dir entries) =
      entries.flatMap (sourcesOfEntry settings path relative) := by
  rw [sourcesBelow, Node.files_dir, List.filter_flatMap, List.map_flatMap]
  refine List.flatMap_congr fun entry _ ↦ ?_
  rw [List.filter_map, List.map_map, sourcesOfEntry]
  exact List.map_congr_left fun file _ ↦ sourceBelow_underEntry path relative last entry.1 file

/-- An entry that is a directory adds what is found below it, or nothing. -/
theorem sourcesOfEntry_dir (settings : ScanSettings) (path relative : Path) (name : String)
    (entries : List (String × Node)) :
    sourcesOfEntry settings path relative (name, .dir entries) =
      if settings.recursive && !isPassedOver name true then
        sourcesBelow settings (path.join name) (entryRelative relative name) name (.dir entries)
      else [] := by
  have hkeeps : ∀ file ∈ (Node.dir entries).files, settings.keeps (name :: file.1) =
      (settings.recursive && !isPassedOver name true && settings.keeps file.1) := by
    intro file hfile
    obtain ⟨first, next, hplace⟩ := Node.exists_eq_cons_of_mem_files_dir hfile
    exact ScanSettings.keeps_cons (by simp [hplace]) name
  rw [sourcesOfEntry, List.filter_congr hkeeps]
  split
  · next h => simp only [h, Bool.true_and]; rfl
  · next h => simp [h]

/-! ### The walk of a plain tree -/

section PlainTree

variable {dir : Visited} {outer : List Visited} {relative : Path} {entries : List (String × Node)}

/-- All entries of a plain directory have paths. -/
theorem entriesAt_of_isPlain {place : Place} (hplain : (Node.dir entries).IsPlain)
    (hplace : disk.at? place = some (.dir entries)) : disk.entriesAt place = entries := by
  obtain - | ⟨-, hname, -⟩ := hplain
  rw [Disk.entriesAt, hplace]
  exact List.filter_eq_self.2 fun entry hentry ↦ decide_eq_true (hname entry hentry)

/-- The path of an entry that is not passed over leads to its place, if the disk accepts it. -/
theorem locate_join_of_isPlain (hdir : disk.locateDirectory dir.path = .ok dir.place)
    {name : String} (hname : IsName name) {node : Node} (hplain : node.IsPlain)
    (hnode : disk.at? (dir.place ++ [name]) = some node) {isDir : Bool}
    (hpassed : isPassedOver name isDir = false) :
    disk.locate (dir.path.join name) =
      if FitsBelow dir.path [name] then .ok (dir.place ++ [name]) else .error .nameTooLong := by
  have hlink : ∀ target, node ≠ .link target := by
    rintro target rfl
    cases hplain
  obtain ⟨hdot, hdots⟩ := ne_dots_of_isPassedOver_eq_false hpassed
  rw [Disk.locate_join hdir hname hdot hdots hnode hlink]
  simp only [fitsBelow_singleton_iff, ite_not]

/-- A directory can be opened by its path, if the disk accepts it. -/
theorem locateDirectory_join_of_isPlain (hdir : disk.locateDirectory dir.path = .ok dir.place)
    {name : String} (hname : IsName name) {inner : List (String × Node)}
    (hplain : (Node.dir inner).IsPlain)
    (hinner : disk.at? (dir.place ++ [name]) = some (.dir inner))
    (hpassed : isPassedOver name true = false) (hfit : FitsBelow dir.path [name]) :
    disk.locateDirectory (dir.path.join name) = .ok (dir.place ++ [name]) := by
  have hlocate := locate_join_of_isPlain hdir hname hplain hinner hpassed
  rw [if_pos hfit] at hlocate
  exact Disk.locateDirectory_of_locate hlocate hinner

/-- What the walk makes of an entry that can be opened, if the walk goes on as it should. -/
theorem walkEntry_eq_ok {inside : Path → Path → Except ScanError (List SourceFile)}
    {name : String} {node : Node} (hplain : node.IsPlain)
    (hnode : disk.at? (dir.place ++ [name]) = some node)
    (hread : ∀ bytes, node = .file bytes → settings.keeps [name] →
      disk.read (dir.path.join name) = .ok bytes)
    (hinside : ∀ entries, node = .dir entries → isPassedOver name true = false →
      inside (dir.path.join name) (entryRelative relative name) =
        .ok (sourcesOfEntry settings dir.path relative (name, node))) :
    walkEntry disk settings inside dir outer relative (name, node) =
      .ok (sourcesOfEntry settings dir.path relative (name, node)) := by
  cases hplain with
  | file bytes =>
    have hkeeps : settings.keeps [name] =
        !(isPassedOver name false || !settings.selects name) := by
      rw [ScanSettings.keeps, Bool.not_or, Bool.not_not]
    rw [walkEntry_of_ok rfl, walkPlace, hnode]
    simp only [sourcesOfEntry, Node.files, List.filter_cons, List.filter_nil]
    split
    · next h => rw [if_neg (by simp [hkeeps, h])]; rfl
    · next h =>
      have hkept : settings.keeps [name] := by rw [hkeeps]; simpa using h
      rw [readSource, hread bytes rfl hkept, if_pos hkept]
      rfl
  | @dir entries _ _ _ =>
    rw [walkEntry_of_ok rfl, walkPlace, hnode]
    cases hpassed : isPassedOver name true with
    | true => simp [sourcesOfEntry_dir, hpassed]
    | false => exact hinside entries rfl hpassed

/-- What the walk makes of a directory, if all sources in it can be opened and the walk goes on as
it should. -/
theorem walk_succ_eq_ok (dir : Visited) {depth : Nat} (hplain : (Node.dir entries).IsPlain)
    (hdir : disk.locateDirectory dir.path = .ok dir.place)
    (hplace : disk.at? dir.place = some (.dir entries))
    (hfits : ∀ place, settings.Opens (.dir entries) place → FitsBelow dir.path place)
    (hinside : ∀ name inner, (name, .dir inner) ∈ entries →
      disk.at? (dir.place ++ [name]) = some (.dir inner) → isPassedOver name true = false →
      walk disk settings depth (dir.path.join name) (dir :: outer) (entryRelative relative name) =
        .ok (sourcesOfEntry settings dir.path relative (name, .dir inner))) (last : String) :
    walk disk settings (depth + 1) dir.path outer relative =
      .ok (sourcesBelow settings dir.path relative last (.dir entries)) := by
  rw [walk_of_locateDirectory dir hdir, sourcesBelow_dir, entriesAt_of_isPlain hplain hplace]
  obtain - | ⟨hnodup, hname, hnode⟩ := hplain
  refine collect_eq_ok fun entry hentry ↦ ?_
  obtain ⟨name, node⟩ := entry
  have hlookup := (Node.lookup_eq_some_iff_mem hnodup).2 hentry
  have hat : disk.at? (dir.place ++ [name]) = some node :=
    (Node.at?_append_singleton hplace name).trans hlookup
  refine walkEntry_eq_ok (hnode _ hentry) hat (fun bytes hbytes hkept ↦ ?_)
    fun inner hinner hpassed ↦ ?_
  · subst hbytes
    have hsource : settings.IsSource [] name := ScanSettings.keeps_iff.1 hkept
    have hpassed : isPassedOver name false = false :=
      not_isPassedOver_iff.2 ⟨hsource.visible name List.mem_cons_self, nofun⟩
    have hlocate := locate_join_of_isPlain hdir (hname _ hentry) (hnode _ hentry) hat hpassed
    rw [if_pos (hfits [name] (ScanSettings.opens_cons_iff.2
      ⟨_, hlookup, .inl ⟨rfl, ⟨bytes, rfl⟩, hsource⟩⟩))] at hlocate
    exact Disk.read_eq_ok_iff.2 ⟨_, hlocate, hat⟩
  · subst hinner
    exact hinside name inner hentry hat hpassed

/-- With subdirectories, the walk finds all sources if it can open them and the directories on the
way, and may enter enough levels. -/
theorem walk_eq_ok (dir : Visited) (hrecursive : settings.recursive) {depth : Nat}
    (hplain : (Node.dir entries).IsPlain) (hdir : disk.locateDirectory dir.path = .ok dir.place)
    (hplace : disk.at? dir.place = some (.dir entries))
    (hfits : ∀ place, settings.Opens (.dir entries) place → FitsBelow dir.path place)
    (hdepth : budget dir.path < depth) (last : String) :
    walk disk settings depth dir.path outer relative =
      .ok (sourcesBelow settings dir.path relative last (.dir entries)) := by
  induction depth generalizing dir outer relative entries last with
  | zero => omega
  | succ depth ih =>
    refine walk_succ_eq_ok dir hplain hdir hplace hfits (fun name inner hentry hat hpassed ↦ ?_)
      last
    obtain - | ⟨hnodup, hname, hnode⟩ := hplain
    have hlookup := (Node.lookup_eq_some_iff_mem hnodup).2 hentry
    have hopens : ∀ place, settings.Opens (.dir inner) place →
        settings.Opens (.dir entries) (name :: place) := fun place hplace ↦
      ScanSettings.opens_cons_iff.2 ⟨_, hlookup, .inr ⟨hrecursive, hpassed, hplace⟩⟩
    have hfit : FitsBelow dir.path [name] := hfits [name] (hopens [] (settings.opens_nil inner))
    have hinner := locateDirectory_join_of_isPlain hdir (hname _ hentry) (hnode _ hentry) hat
      hpassed hfit
    have hlt : budget (dir.path.join name) < budget dir.path := budget_join_lt hdir (hname _ hentry)
    have hwalk : walk disk settings depth (dir.path.join name) (dir :: outer)
        (entryRelative relative name) = .ok (sourcesBelow settings (dir.path.join name)
          (entryRelative relative name) name (.dir inner)) :=
      ih ⟨dir.place ++ [name], dir.path.join name⟩ (hnode _ hentry) hinner hat
        (fun place hplace ↦ (fitsBelow_cons_iff hfit).1 (hfits _ (hopens place hplace)))
        (show budget (dir.path.join name) < depth by omega) name
    rw [hwalk, sourcesOfEntry_dir, hrecursive, hpassed]
    rfl

/-- **A path that the disk does not accept ends the walk**, wherever the walk comes to it. -/
theorem walk_eq_error_of_opens (dir : Visited) {depth : Nat} {place : Place}
    (hplain : (Node.dir entries).IsPlain)
    (hdir : disk.locateDirectory dir.path = .ok dir.place)
    (hplace : disk.at? dir.place = some (.dir entries))
    (hopens : settings.Opens (.dir entries) place) (hfits : ¬FitsBelow dir.path place)
    (hdepth : settings.recursive → budget dir.path < depth + 1) :
    ∃ e, walk disk settings (depth + 1) dir.path outer relative = .error e := by
  induction place generalizing dir outer relative entries depth with
  | nil =>
    have hshort := Disk.utf8ByteSize_lt_of_locate (Disk.locateDirectory_eq_ok_iff.1 hdir).1
    exact absurd ⟨hshort, nofun⟩ hfits
  | cons name place ih =>
    have hentries := entriesAt_of_isPlain hplain hplace
    obtain - | ⟨hnodup, hname, hnode⟩ := hplain
    obtain ⟨node, hlookup, hnext⟩ := ScanSettings.opens_cons_iff.1 hopens
    have hentry := (Node.lookup_eq_some_iff_mem hnodup).1 hlookup
    have hat : disk.at? (dir.place ++ [name]) = some node :=
      (Node.at?_append_singleton hplace name).trans hlookup
    suffices h : ∃ e, walkEntry disk settings
        (fun path ↦ walk disk settings depth path (dir :: outer)) dir outer relative (name, node) =
          .error e by
      obtain ⟨e, he⟩ := h
      exact walk_succ_eq_error hdir (hentries ▸ hentry) he
    have hstays : entryPlace disk (dir :: outer) dir.place (dir.path.join name) name node =
        .ok (dir.place ++ [name]) := by
      cases hnode _ hentry <;> rfl
    rw [walkEntry_of_ok hstays, walkPlace, hat]
    rcases hnext with ⟨rfl, ⟨bytes, rfl⟩, hsource⟩ | ⟨hrecursive, hpassed, hopens⟩
    · -- a source that cannot be read
      have hkeeps : settings.keeps [name] := ScanSettings.keeps_iff.2 hsource
      rw [ScanSettings.keeps, Bool.and_eq_true, Bool.not_eq_true'] at hkeeps
      have hlocate :=
        locate_join_of_isPlain hdir (hname _ hentry) (hnode _ hentry) hat hkeeps.1
      rw [if_neg hfits] at hlocate
      simp only [hkeeps.1, hkeeps.2, readSource, Disk.read_eq_error_of_locate hlocate]
      exact ⟨_, rfl⟩
    · -- a directory that cannot be opened, or in which the path lies
      obtain ⟨inner, rfl⟩ : ∃ inner, node = .dir inner := by
        cases hnode _ hentry with
        | file bytes => cases place <;> simp [ScanSettings.Opens, Node.at?, Node.isDir] at hopens
        | dir => exact ⟨_, rfl⟩
      have hlt : budget (dir.path.join name) < budget dir.path :=
        budget_join_lt hdir (hname _ hentry)
      have hbudget := hdepth hrecursive
      obtain ⟨depth, rfl⟩ : ∃ depth', depth = depth' + 1 := ⟨depth - 1, by omega⟩
      simp only [hpassed]
      by_cases hfit : FitsBelow dir.path [name]
      · have hinner := locateDirectory_join_of_isPlain hdir (hname _ hentry) (hnode _ hentry) hat
          hpassed hfit
        exact ih ⟨dir.place ++ [name], dir.path.join name⟩ (hnode _ hentry) hinner hat hopens
          (mt (fitsBelow_cons_iff hfit).2 hfits)
          fun _ ↦ (show budget (dir.path.join name) < depth + 1 by omega)
      · have hlocate :=
          locate_join_of_isPlain hdir (hname _ hentry) (hnode _ hentry) hat hpassed
        rw [if_neg hfit] at hlocate
        exact ⟨_, walk_of_locateDirectory_eq_error (Disk.locateDirectory_of_locate_eq_error hlocate)
          depth _⟩

end PlainTree

/-- **The walk of a plain tree finds the files that it keeps**, if it can open what it comes to. -/
theorem walk_walkDepth_eq_ok {place : Place} {entries : List (String × Node)} {root : Path}
    (hplain : (Node.dir entries).IsPlain) (hroot : disk.locateDirectory root = .ok place)
    (hplace : disk.at? place = some (.dir entries))
    (hfits : ∀ place, settings.Opens (.dir entries) place → FitsBelow root place) :
    walk disk settings (walkDepth settings) root [] "" =
      .ok (sourcesBelow settings root "" "" (.dir entries)) := by
  cases hrecursive : settings.recursive with
  | true =>
    exact walk_eq_ok ⟨place, root⟩ hrecursive hplain hroot hplace hfits
      (budget_lt_walkDepth hrecursive root) ""
  | false =>
    rw [walkDepth, if_neg (by simp [hrecursive])]
    refine walk_succ_eq_ok ⟨place, root⟩ hplain hroot hplace hfits
      (fun name inner _ _ _ ↦ ?_) ""
    rw [sourcesOfEntry_dir, hrecursive, walk]
    rfl

/-- **The walk of a plain tree fails**, if it cannot open something that it comes to. -/
theorem walk_walkDepth_eq_error {place opened : Place} {entries : List (String × Node)}
    {root : Path} (hplain : (Node.dir entries).IsPlain)
    (hroot : disk.locateDirectory root = .ok place)
    (hplace : disk.at? place = some (.dir entries))
    (hopens : settings.Opens (.dir entries) opened) (hfits : ¬FitsBelow root opened) :
    ∃ e, walk disk settings (walkDepth settings) root [] "" = .error e := by
  obtain ⟨depth, hdepth⟩ := Nat.exists_eq_add_one.2 (walkDepth_pos settings)
  have hbudget : settings.recursive → budget root < depth + 1 := fun h ↦
    hdepth ▸ budget_lt_walkDepth h root
  rw [hdepth]
  exact walk_eq_error_of_opens ⟨place, root⟩ hplain hroot hplace hopens hfits hbudget

end SchemaDiagram
