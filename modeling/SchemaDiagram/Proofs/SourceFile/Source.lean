import SchemaDiagram.Proofs.SourceFile.Walk

/-!
# Which files are sources

Whether a file is a source is said by its place in the models directory (`ScanSettings.IsSource`).
The walk decides it on its way, one name after the other (`ScanSettings.keeps_iff`), and so it
opens, besides the sources, just the directories that no name on their way excludes
(`ScanSettings.opens_cons_iff`). Whether a disk accepts a path that is opened depends on its length
(`FitsBelow`).
-/

namespace SchemaDiagram

/-! ### Places of sources -/

/-- What follows the last dot of a name, before which there is something, is one of the extensions,
whose leading dots do not count. -/
def ScanSettings.AcceptsName (s : ScanSettings) (name : String) : Prop :=
  ∃ front ext, name.toList = front ++ '.' :: ext ∧ front ≠ [] ∧ '.' ∉ ext ∧
    ∃ accepted ∈ s.extensions,
      ScanSettings.lowerAscii (accepted.toList.dropWhile (· == '.')) = ScanSettings.lowerAscii ext

/-- A file of this name, in these nested directories of the models directory, is a source. -/
structure ScanSettings.IsSource (s : ScanSettings) (dirs : Place) (name : String) : Prop where
  /-- It lies in the models directory itself, unless subdirectories are searched. -/
  depth : dirs = [] ∨ s.recursive
  /-- Neither the file nor a directory on the way to it is hidden. -/
  visible : ∀ part ∈ dirs ++ [name], part.toList.head? ≠ some '.'
  /-- No directory on the way to it holds dependencies. -/
  own : "node_modules" ∉ dirs
  /-- It has one of the extensions. -/
  extension : s.AcceptsName name
  /-- It has one of the names that count, if not all do. -/
  allowed : s.only = [] ∨ name ∈ s.only

/-- These nested directories of the models directory are searched for sources. -/
structure ScanSettings.IsSearched (s : ScanSettings) (dirs : Place) : Prop where
  /-- It is the models directory itself, unless subdirectories are searched. -/
  depth : dirs = [] ∨ s.recursive
  /-- None of the directories is hidden. -/
  visible : ∀ part ∈ dirs, part.toList.head? ≠ some '.'
  /-- None of them holds dependencies. -/
  own : "node_modules" ∉ dirs

/-- What stands at a place of a models directory is opened by its path: it is a directory that is
searched, or a source. -/
def ScanSettings.Opens (s : ScanSettings) (tree : Node) (place : Place) : Prop :=
  (tree.at? place).any Node.isDir ∧ s.IsSearched place ∨
    ∃ dirs name bytes, place = dirs ++ [name] ∧ tree.at? place = some (.file bytes) ∧
      s.IsSource dirs name

/-- The disk accepts the path of a place below a directory. -/
structure FitsBelow (dir : Path) (place : Place) : Prop where
  /-- The path is not too long. -/
  path : (place.foldl Path.join dir).utf8ByteSize < Disk.maxPathBytes
  /-- None of the names is too long. -/
  names : ∀ name ∈ place, name.utf8ByteSize ≤ Disk.maxNameBytes

instance (dir : Path) (place : Place) : Decidable (FitsBelow dir place) :=
  decidable_of_iff
    ((place.foldl Path.join dir).utf8ByteSize < Disk.maxPathBytes ∧
      ∀ name ∈ place, name.utf8ByteSize ≤ Disk.maxNameBytes)
    ⟨fun h ↦ ⟨h.1, h.2⟩, fun h ↦ ⟨h.1, h.2⟩⟩

/-! ### Names of sources -/

/-- The extension of a name stands behind its last dot, if there is something before that. -/
theorem Path.extension?_eq_some_iff {name ext : String} : Path.extension? name = some ext ↔
    ∃ front, name.toList = front ++ '.' :: ext.toList ∧ front ≠ [] ∧ '.' ∉ ext.toList := by
  have hsplit := List.takeWhile_append_dropWhile (p := (· != '.')) (l := name.toList.reverse)
  constructor
  · intro h
    unfold Path.extension? at h
    simp only at h
    split at h
    · next dot first front hdrop =>
      obtain rfl : dot = '.' := by
        have := List.head?_dropWhile_not (· != '.') name.toList.reverse
        simpa [hdrop] using this
      obtain rfl := Option.some.inj h
      refine ⟨(first :: front).reverse, ?_, by simp, fun hdot ↦ ?_⟩
      · rw [hdrop] at hsplit
        have := congrArg List.reverse hsplit
        simpa using this.symm
      · have hall := List.all_takeWhile (p := (· != '.')) (l := name.toList.reverse)
        rw [String.toList_ofList, List.mem_reverse] at hdot
        simpa using List.all_eq_true.1 hall '.' hdot
    · cases h
  · rintro ⟨front, hname, hfront, hext⟩
    obtain ⟨first, rest, hreverse⟩ : ∃ first rest, front.reverse = first :: rest :=
      List.exists_cons_of_ne_nil (by simpa using hfront)
    have hback : name.toList.reverse = ext.toList.reverse ++ '.' :: front.reverse := by
      simp [hname]
    have hall : ∀ c ∈ ext.toList.reverse, (c != '.') = true := fun c hc ↦ by
      have : c ≠ '.' := fun hdot ↦ hext (hdot ▸ List.mem_reverse.1 hc)
      simpa using this
    have htake : (ext.toList.reverse ++ '.' :: front.reverse).takeWhile (· != '.') =
        ext.toList.reverse := by
      rw [List.takeWhile_append_of_pos hall]; simp
    have hdrop : (ext.toList.reverse ++ '.' :: front.reverse).dropWhile (· != '.') =
        '.' :: first :: rest := by
      rw [List.dropWhile_append_of_pos hall, hreverse]; simp
    simp only [Path.extension?, hback, htake, hdrop, List.reverse_reverse, String.ofList_toList]

theorem ScanSettings.selects_iff {s : ScanSettings} {name : String} :
    s.selects name ↔ s.AcceptsName name ∧ (s.only = [] ∨ name ∈ s.only) := by
  have hext : (Path.extension? name).any s.acceptsExtension ↔ s.AcceptsName name := by
    rw [Option.any_eq_true]
    constructor
    · rintro ⟨ext, hext, haccepted⟩
      obtain ⟨front, hname, hfront, hdot⟩ := Path.extension?_eq_some_iff.1 hext
      exact ⟨front, ext.toList, hname, hfront, hdot, by simpa [acceptsExtension] using haccepted⟩
    · rintro ⟨front, ext, hname, hfront, hdot, haccepted⟩
      refine ⟨String.ofList ext, Path.extension?_eq_some_iff.2 ⟨front, ?_⟩, ?_⟩
      · simpa using ⟨hname, hfront, hdot⟩
      · simpa [acceptsExtension] using haccepted
  rw [selects, Bool.and_eq_true, hext]
  simp [allows]

/-- Whether the walk keeps a file, by the names on its way through the models directory. -/
def ScanSettings.keeps (s : ScanSettings) : Place → Bool
  | [] => false
  | [name] => !isPassedOver name false && s.selects name
  | name :: next :: place => s.recursive && !isPassedOver name true && s.keeps (next :: place)

theorem ScanSettings.keeps_cons {s : ScanSettings} {place : Place} (h : place ≠ [])
    (first : String) : s.keeps (first :: place) =
      (s.recursive && !isPassedOver first true && s.keeps place) := by
  cases place with
  | nil => exact absurd rfl h
  | cons next place => rfl

/-- **The walk keeps the sources.** -/
theorem ScanSettings.keeps_iff {s : ScanSettings} {dirs : Place} {name : String} :
    s.keeps (dirs ++ [name]) ↔ s.IsSource dirs name := by
  induction dirs with
  | nil =>
    rw [List.nil_append, keeps, Bool.and_eq_true, selects_iff, Bool.not_eq_true',
      not_isPassedOver_iff]
    constructor
    · rintro ⟨⟨hvisible, -⟩, hext, hallowed⟩
      exact ⟨.inl rfl, by simpa using hvisible, by simp, hext, hallowed⟩
    · rintro ⟨-, hvisible, -, hext, hallowed⟩
      exact ⟨⟨by simpa using hvisible, by simp⟩, hext, hallowed⟩
  | cons first dirs ih =>
    rw [List.cons_append, keeps_cons (by simp), Bool.and_eq_true, Bool.and_eq_true, ih,
      Bool.not_eq_true', not_isPassedOver_iff]
    constructor
    · rintro ⟨⟨hrecursive, hvisible, hown⟩, hsource⟩
      exact ⟨.inr hrecursive, List.forall_mem_cons.2 ⟨hvisible, hsource.visible⟩,
        by simpa [eq_comm] using ⟨hown rfl, hsource.own⟩, hsource.extension, hsource.allowed⟩
    · rintro ⟨hdepth, hvisible, hown, hext, hallowed⟩
      have hrecursive : s.recursive := by simpa using hdepth
      rw [List.cons_append, List.forall_mem_cons] at hvisible
      rw [List.mem_cons, not_or] at hown
      exact ⟨⟨hrecursive, hvisible.1, fun _ ↦ Ne.symm hown.1⟩,
        .inr hrecursive, hvisible.2, hown.2, hext, hallowed⟩

/-! ### Places that are opened -/

theorem ScanSettings.isSource_cons_iff {s : ScanSettings} {first : String} {dirs : Place}
    {name : String} : s.IsSource (first :: dirs) name ↔
      s.recursive ∧ isPassedOver first true = false ∧ s.IsSource dirs name := by
  rw [← keeps_iff, ← keeps_iff, List.cons_append, keeps_cons (by simp)]
  simp only [Bool.and_eq_true, Bool.not_eq_true', and_assoc]

theorem ScanSettings.isSearched_cons_iff {s : ScanSettings} {first : String} {dirs : Place} :
    s.IsSearched (first :: dirs) ↔
      s.recursive ∧ isPassedOver first true = false ∧ s.IsSearched dirs := by
  rw [not_isPassedOver_iff]
  constructor
  · rintro ⟨hdepth, hvisible, hown⟩
    have hrecursive : s.recursive := by simpa using hdepth
    rw [List.forall_mem_cons] at hvisible
    rw [List.mem_cons, not_or] at hown
    exact ⟨hrecursive, ⟨hvisible.1, fun _ ↦ Ne.symm hown.1⟩,
      .inr hrecursive, hvisible.2, hown.2⟩
  · rintro ⟨hrecursive, ⟨hfirst, hne⟩, -, hvisible, hown⟩
    exact ⟨.inr hrecursive, List.forall_mem_cons.2 ⟨hfirst, hvisible⟩,
      by simpa [eq_comm] using ⟨hne rfl, hown⟩⟩

/-- **What is opened below a directory** is an entry that is a source, or what is opened below an
entry that is a directory to be searched. -/
theorem ScanSettings.opens_cons_iff {s : ScanSettings} {entries : List (String × Node)}
    {name : String} {place : Place} : s.Opens (.dir entries) (name :: place) ↔
      ∃ node, entries.lookup name = some node ∧
        (place = [] ∧ (∃ bytes, node = .file bytes) ∧ s.IsSource [] name ∨
          s.recursive ∧ isPassedOver name true = false ∧ s.Opens node place) := by
  rw [Opens, Node.at?_dir_cons]
  cases entries.lookup name with
  | none => simp
  | some node =>
    simp only [Option.bind_some, Option.some.injEq, exists_eq_left', isSearched_cons_iff]
    constructor
    · rintro (⟨hdir, hrecursive, hname, hsearched⟩ | ⟨dirs, last, bytes, hplace, hfile, hsource⟩)
      · exact .inr ⟨hrecursive, hname, .inl ⟨hdir, hsearched⟩⟩
      · cases dirs with
        | nil =>
          obtain ⟨rfl, rfl⟩ := List.cons.inj hplace
          rw [Node.at?_nil] at hfile
          exact .inl ⟨rfl, ⟨bytes, Option.some.inj hfile⟩, hsource⟩
        | cons first dirs =>
          obtain ⟨rfl, rfl⟩ := List.cons.inj hplace
          obtain ⟨hrecursive, hname, hsource⟩ := isSource_cons_iff.1 hsource
          exact .inr ⟨hrecursive, hname, .inr ⟨dirs, last, bytes, rfl, hfile, hsource⟩⟩
    · rintro (⟨rfl, ⟨bytes, rfl⟩, hsource⟩ | ⟨hrecursive, hname, hdir | hsource⟩)
      · exact .inr ⟨[], name, bytes, rfl, rfl, hsource⟩
      · exact .inl ⟨hdir.1, hrecursive, hname, hdir.2⟩
      · obtain ⟨dirs, last, bytes, rfl, hfile, hsource⟩ := hsource
        exact .inr ⟨name :: dirs, last, bytes, rfl, hfile,
          isSource_cons_iff.2 ⟨hrecursive, hname, hsource⟩⟩

/-- A directory that is opened is searched from its own place on. -/
theorem ScanSettings.opens_nil (s : ScanSettings) (entries : List (String × Node)) :
    s.Opens (.dir entries) [] :=
  .inl ⟨rfl, .inl rfl, nofun, nofun⟩

/-- There is something at each place that is opened. -/
theorem ScanSettings.Opens.isSome_at? {s : ScanSettings} {tree : Node} {place : Place}
    (h : s.Opens tree place) : (tree.at? place).isSome := by
  rcases h with ⟨hdir, -⟩ | ⟨_, _, _, -, hfile, -⟩
  · exact Option.isSome_of_any hdir
  · rw [hfile]
    rfl

/-- Which places are opened is told by what stands at each of them. -/
theorem ScanSettings.opens_congr {s : ScanSettings} {tree tree' : Node} {place : Place}
    (h : tree'.bareAt? place = tree.bareAt? place) : s.Opens tree' place ↔ s.Opens tree place := by
  have hdir : ∀ tree : Node,
      (tree.at? place).any Node.isDir = (tree.bareAt? place).any Node.isDir := by
    intro tree
    rw [Node.bareAt?, Option.any_map]
    exact congrArg (Option.any · _) (funext fun node ↦ (Node.isDir_bare node).symm)
  have hfile : ∀ (tree : Node) (bytes : List UInt8), tree.at? place = some (.file bytes) ↔
      tree.bareAt? place = some (.file bytes) := by
    intro tree bytes
    rw [Node.bareAt?, Option.map_eq_some_iff]
    simp only [Node.bare_eq_file_iff, exists_eq_right]
  simp only [Opens, hdir, hfile, h]

theorem fitsBelow_singleton_iff {dir : Path} {name : String} : FitsBelow dir [name] ↔
    ¬(Disk.maxPathBytes ≤ (dir.join name).utf8ByteSize ∨
      Disk.maxNameBytes < name.utf8ByteSize) := by
  rw [not_or, Nat.not_le, Nat.not_lt]
  exact ⟨fun h ↦ ⟨h.path, h.names name List.mem_cons_self⟩,
    fun h ↦ ⟨h.1, fun _ hother ↦ List.mem_singleton.1 hother ▸ h.2⟩⟩

theorem fitsBelow_cons_iff {dir : Path} {name : String} {place : Place}
    (hname : FitsBelow dir [name]) :
    FitsBelow dir (name :: place) ↔ FitsBelow (dir.join name) place :=
  ⟨fun h ↦ ⟨h.path, fun other hother ↦ h.names other (List.mem_cons_of_mem name hother)⟩,
    fun h ↦ ⟨h.path, List.forall_mem_cons.2 ⟨hname.names name List.mem_cons_self, h.names⟩⟩⟩

end SchemaDiagram
