import SchemaDiagram.Proofs.SourceFile.PassedOver
import SchemaDiagram.Proofs.SourceFile.PlainWalk
import SchemaDiagram.Proofs.Text.ByteOrder

/-!
# Which sources are found

In a models directory without links, the sources that are found are the files of the tree that are
sources, if the disk accepts the paths that are opened. Their paths are all different
(`intercalate_slash_inj`), so there is only one order for them, and it does not matter in which
order the walk comes to them (`discoverSources_of_isPlain`). The paths are what can go wrong: also
where a tree is not deep, the path of the models directory may leave too little room for the path of
a source (`discoverSources_paddedRoot`).
-/

namespace SchemaDiagram

open Node (IsName IsPlain Reordering)

variable {disk : Disk} {settings : ScanSettings}

/-! ### Listings -/

/-- The source that a file is read as. -/
def SourceFile.ofFile (dir : Path) (dirs : Place) (name : String) (bytes : List UInt8) :
    SourceFile where
  path := (dirs ++ [name]).foldl Path.join dir
  relativePath := "/".intercalate (dirs ++ [name])
  name
  text := Text.decodeLossy bytes

/-- The sources are those of a models directory with this tree. -/
structure IsListing (settings : ScanSettings) (dir : Path) (tree : Node)
    (sources : List SourceFile) : Prop where
  /-- They are in the order of the bytes of their paths, which are all different. -/
  increasing : sources.Pairwise fun a b ↦
    Text.encode a.relativePath < Text.encode b.relativePath
  /-- There is one for each file that is a source, and no other. -/
  files : ∃ files : List (Place × String × List UInt8), files.Nodup ∧
    (∀ dirs name bytes, (dirs, name, bytes) ∈ files ↔
      tree.at? (dirs ++ [name]) = some (.file bytes) ∧ settings.IsSource dirs name) ∧
    sources.Perm (files.map fun (dirs, name, bytes) ↦ .ofFile dir dirs name bytes)

/-! ### Paths within the models directory -/

theorem foldl_entryRelative {first : String} (hfirst : first ≠ "") (place : Place) :
    place.foldl entryRelative first = "/".intercalate (first :: place) := by
  induction place generalizing first with
  | nil => rw [List.foldl_nil, String.intercalate_singleton]
  | cons name place ih =>
    have hstep : entryRelative first name = first ++ "/" ++ name :=
      if_neg (by simpa [String.isEmpty_iff] using hfirst)
    rw [List.foldl_cons, hstep, ih (by simp [hfirst]), String.intercalate_cons_append,
      String.intercalate_cons_cons]

/-- The path within the models directory has the names on the way with slashes between them. -/
theorem foldl_entryRelative_empty {place : Place} (h : ∀ name ∈ place, IsName name) :
    place.foldl entryRelative "" = "/".intercalate place := by
  cases place with
  | nil => rfl
  | cons first place =>
    rw [List.foldl_cons, show entryRelative "" first = first from rfl,
      foldl_entryRelative (h first List.mem_cons_self).ne_empty]

/-- Files in different places have different paths. -/
theorem intercalate_slash_inj {place other : Place} (hplace : ∀ name ∈ place, IsName name)
    (hother : ∀ name ∈ other, IsName name) (hne : place ≠ []) (hne' : other ≠ [])
    (h : "/".intercalate place = "/".intercalate other) : place = other := by
  have hsplit : ∀ {names : Place}, (∀ name ∈ names, IsName name) → names ≠ [] →
      List.splitOn '/' ("/".intercalate names).toList = names.map String.toList := by
    intro names hnames hne
    rw [String.toList_intercalate, show "/".toList = ['/'] from rfl]
    refine List.splitOn_intercalate '/' (fun part hpart ↦ ?_) (by simpa using hne)
    obtain ⟨name, hname, rfl⟩ := List.mem_map.1 hpart
    exact (hnames name hname).no_slash
  have hmap : place.map String.toList = other.map String.toList := by
    rw [← hsplit hplace hne, h, hsplit hother hne']
  exact (List.map_injective_iff.2 fun _ _ ↦ String.toList_injective) hmap

/-! ### The sources in order -/

/-- The files of a tree that are sources, with the directories on the way to them. -/
def sourceFiles (settings : ScanSettings) (tree : Node) : List (Place × String × List UInt8) :=
  (tree.files.filter fun file ↦ settings.keeps file.1).map fun file ↦
    (file.1.dropLast, file.1.getLastD "", file.2)

section SourceFiles

variable {entries : List (String × Node)} {file : Place × List UInt8}

theorem exists_eq_concat_of_mem (h : file ∈ (Node.dir entries).files) :
    ∃ dirs name, file.1 = dirs ++ [name] := by
  obtain ⟨first, next, hplace⟩ := Node.exists_eq_cons_of_mem_files_dir h
  refine ⟨file.1.dropLast, file.1.getLast (by simp [hplace]), ?_⟩
  exact (List.dropLast_append_getLast _).symm

theorem mem_sourceFiles_iff (hplain : (Node.dir entries).IsPlain) {dirs : Place} {name : String}
    {bytes : List UInt8} : (dirs, name, bytes) ∈ sourceFiles settings (.dir entries) ↔
      (Node.dir entries).at? (dirs ++ [name]) = some (.file bytes) ∧
        settings.IsSource dirs name := by
  rw [← hplain.mem_files_iff, ← ScanSettings.keeps_iff, sourceFiles, List.mem_map]
  constructor
  · rintro ⟨⟨place, content⟩, hmem, hfile⟩
    obtain ⟨hfiles, hkeeps⟩ := List.mem_filter.1 hmem
    obtain ⟨dirs', name', rfl⟩ := exists_eq_concat_of_mem hfiles
    simp only [List.dropLast_concat, List.getLastD_concat, Prod.mk.injEq] at hfile
    obtain ⟨rfl, rfl, rfl⟩ := hfile
    exact ⟨hfiles, hkeeps⟩
  · rintro ⟨hfiles, hkeeps⟩
    exact ⟨(dirs ++ [name], bytes), List.mem_filter.2 ⟨hfiles, hkeeps⟩, by simp⟩

theorem nodup_sourceFiles (hplain : (Node.dir entries).IsPlain) (settings : ScanSettings) :
    (sourceFiles settings (.dir entries)).Nodup := by
  refine List.Nodup.map_on (fun file hfile other hother h ↦ ?_) (hplain.nodup_files.filter _)
  obtain ⟨dirs, name, hplace⟩ := exists_eq_concat_of_mem (List.mem_filter.1 hfile).1
  obtain ⟨dirs', name', hplace'⟩ := exists_eq_concat_of_mem (List.mem_filter.1 hother).1
  simp only [hplace, hplace', List.dropLast_concat, List.getLastD_concat, Prod.mk.injEq] at h
  refine Prod.ext ?_ h.2.2
  rw [hplace, hplace', h.1, h.2.1]

/-- The names on the way to a file are names. -/
theorem isName_of_mem_sourceFiles (hplain : (Node.dir entries).IsPlain) {dirs : Place}
    {name : String} {bytes : List UInt8}
    (h : (dirs, name, bytes) ∈ sourceFiles settings (.dir entries)) :
    ∀ part ∈ dirs ++ [name], IsName part :=
  hplain.isName_of_at? (by rw [((mem_sourceFiles_iff hplain).1 h).1]; rfl)

theorem sourcesBelow_eq_map (hplain : (Node.dir entries).IsPlain) (settings : ScanSettings)
    (dir : Path) : sourcesBelow settings dir "" "" (.dir entries) =
      (sourceFiles settings (.dir entries)).map
        fun (dirs, name, bytes) ↦ .ofFile dir dirs name bytes := by
  rw [sourceFiles, List.map_map, sourcesBelow]
  refine List.map_congr_left fun file hmem ↦ ?_
  obtain ⟨place, bytes⟩ := file
  have hfiles := (List.mem_filter.1 hmem).1
  obtain ⟨dirs, name, rfl⟩ := exists_eq_concat_of_mem hfiles
  have hnames : ∀ part ∈ dirs ++ [name], IsName part :=
    hplain.isName_of_at? (by rw [hplain.mem_files_iff.1 hfiles]; rfl)
  simp only [sourceBelow, SourceFile.ofFile, foldl_entryRelative_empty hnames, Function.comp_apply,
    List.dropLast_concat, List.getLastD_concat]

/-- No two sources have the same path. -/
theorem pairwise_relativePath_ne (hplain : (Node.dir entries).IsPlain) (settings : ScanSettings)
    (dir : Path) : (sourcesBelow settings dir "" "" (.dir entries)).Pairwise
      fun a b ↦ a.relativePath ≠ b.relativePath := by
  rw [sourcesBelow_eq_map hplain, List.pairwise_map]
  refine (nodup_sourceFiles hplain settings).imp_of_mem
    fun {file other} hfile hother hne hpath ↦ hne ?_
  obtain ⟨dirs, name, bytes⟩ := file
  obtain ⟨dirs', name', bytes'⟩ := other
  have hplace : dirs ++ [name] = dirs' ++ [name'] :=
    intercalate_slash_inj (isName_of_mem_sourceFiles hplain hfile)
      (isName_of_mem_sourceFiles hplain hother) (by simp) (by simp) hpath
  -- the same place has the same file
  have hat := ((mem_sourceFiles_iff hplain).1 hfile).1
  rw [hplace, ((mem_sourceFiles_iff hplain).1 hother).1] at hat
  obtain ⟨rfl, rfl⟩ := List.append_singleton_inj.1 hplace
  obtain rfl : bytes' = bytes := by simpa using hat
  rfl

/-- The sources in the order of their paths. -/
def sortedSources (settings : ScanSettings) (dir : Path) (tree : Node) : List SourceFile :=
  (sourcesBelow settings dir "" "" tree).mergeSort fun a b ↦
    decide (a.relativePath ≤ b.relativePath)

theorem pairwise_sortedSources (hplain : (Node.dir entries).IsPlain) (settings : ScanSettings)
    (dir : Path) : (sortedSources settings dir (.dir entries)).Pairwise
      fun a b ↦ a.relativePath < b.relativePath := by
  have hsorted : (sortedSources settings dir (.dir entries)).Pairwise
      fun a b ↦ decide (a.relativePath ≤ b.relativePath) = true := by
    refine List.pairwise_mergeSort (fun a b c hab hbc ↦ ?_) (fun a b ↦ ?_) _
    · simp only [decide_eq_true_eq] at hab hbc ⊢
      exact le_trans hab hbc
    · simpa using le_total a.relativePath b.relativePath
  have hne : (sortedSources settings dir (.dir entries)).Pairwise
      fun a b ↦ a.relativePath ≠ b.relativePath :=
    (pairwise_relativePath_ne hplain settings dir).perm (List.mergeSort_perm _ _).symm
      fun h ↦ Ne.symm h
  exact (hsorted.and hne).imp fun h ↦ lt_of_le_of_ne (by simpa using h.1) h.2

/-- The sources in order are those of the tree. -/
theorem isListing_sortedSources (hplain : (Node.dir entries).IsPlain) (settings : ScanSettings)
    (dir : Path) :
    IsListing settings dir (.dir entries) (sortedSources settings dir (.dir entries)) where
  increasing := (pairwise_sortedSources hplain settings dir).imp Text.encode_lt_encode
  files := by
    refine ⟨sourceFiles settings (.dir entries), nodup_sourceFiles hplain settings,
      fun dirs name bytes ↦ mem_sourceFiles_iff hplain, ?_⟩
    rw [← sourcesBelow_eq_map hplain]
    exact List.mergeSort_perm _ _

/-- The order of the entries does not show in the order of the sources. -/
theorem sortedSources_of_reordering {entries' : List (String × Node)}
    (hplain : (Node.dir entries).IsPlain) (h : Reordering (.dir entries) (.dir entries'))
    (settings : ScanSettings) (dir : Path) :
    sortedSources settings dir (.dir entries') = sortedSources settings dir (.dir entries) := by
  have hperm : (sourcesBelow settings dir "" "" (.dir entries')).Perm
      (sourcesBelow settings dir "" "" (.dir entries)) := (h.perm_files.symm.filter _).map _
  have hsorted : (sortedSources settings dir (.dir entries')).Perm
      (sortedSources settings dir (.dir entries)) :=
    (List.mergeSort_perm _ _).trans (hperm.trans (List.mergeSort_perm _ _).symm)
  exact hsorted.eq_of_pairwise (fun a b _ _ hab hba ↦ absurd hba (lt_asymm hab))
    (pairwise_sortedSources (h.isPlain hplain) settings dir)
    (pairwise_sortedSources hplain settings dir)

end SourceFiles

variable {root : Path} {place : Place} {entries : List (String × Node)}

theorem discoverSources_eq_ok (hroot : disk.locate root = .ok place)
    (hplace : disk.at? place = some (.dir entries)) (hplain : (Node.dir entries).IsPlain)
    (hfits : ∀ place, settings.Opens (.dir entries) place → FitsBelow root place) :
    discoverSources disk root settings = .ok (sortedSources settings root (.dir entries)) := by
  have hopen := Disk.locateDirectory_of_locate hroot hplace
  rw [discoverSources, if_pos (Disk.isDirectory_iff.2 ⟨place, hopen⟩),
    walk_walkDepth_eq_ok hplain hopen hplace hfits]
  rfl

theorem discoverSources_eq_error (hroot : disk.locate root = .ok place)
    (hplace : disk.at? place = some (.dir entries)) (hplain : (Node.dir entries).IsPlain)
    {opened : Place} (hopens : settings.Opens (.dir entries) opened)
    (hfits : ¬FitsBelow root opened) : ∃ e, discoverSources disk root settings = .error e := by
  have hopen := Disk.locateDirectory_of_locate hroot hplace
  obtain ⟨e, he⟩ := walk_walkDepth_eq_error hplain hopen hplace hopens hfits
  rw [discoverSources, if_pos (Disk.isDirectory_iff.2 ⟨place, hopen⟩), he]
  exact ⟨e, rfl⟩

/-- **In a models directory without links, exactly the sources are found**, each of them once and in
the order of their paths, in whatever order the directories have their entries, if the disk accepts
all paths that are opened. If it does not, the search fails. -/
theorem discoverSources_of_isPlain (hroot : disk.locate root = .ok place)
    (hplace : disk.at? place = some (.dir entries)) (hplain : (Node.dir entries).IsPlain)
    (settings : ScanSettings) :
    ((∀ opened, settings.Opens (.dir entries) opened → FitsBelow root opened) →
      ∃ sources, discoverSources disk root settings = .ok sources ∧
        IsListing settings root (.dir entries) sources ∧
        ∀ (disk' : Disk) (place' : Place) (tree' : Node), disk'.locate root = .ok place' →
          disk'.at? place' = some tree' → Reordering (.dir entries) tree' →
          discoverSources disk' root settings = .ok sources) ∧
    ((∃ opened, settings.Opens (.dir entries) opened ∧ ¬FitsBelow root opened) →
      ∃ e, discoverSources disk root settings = .error e) := by
  constructor
  · intro hfits
    refine ⟨_, discoverSources_eq_ok hroot hplace hplain hfits,
      isListing_sortedSources hplain settings root, fun disk' place' tree' hroot' hplace' h ↦ ?_⟩
    obtain ⟨entries', rfl⟩ : ∃ entries', tree' = .dir entries' := by
      have hdir := h.isDir
      cases tree' with
      | dir entries' => exact ⟨entries', rfl⟩
      | file bytes => cases hdir
      | link target => cases hdir
    have hfits' : ∀ opened, settings.Opens (.dir entries') opened → FitsBelow root opened :=
      fun opened hopened ↦ hfits opened
        ((ScanSettings.opens_congr (h.bareAt?_eq hplain opened)).1 hopened)
    rw [discoverSources_eq_ok hroot' hplace' (h.isPlain hplain) hfits',
      sortedSources_of_reordering hplain h]
  · rintro ⟨opened, hopens, hfits⟩
    exact discoverSources_eq_error hroot hplace hplain hopens hfits

/-- A hidden file, dependencies, and a directory with a source and a file called like the
dependencies. -/
def blogEntries : List (String × Node) :=
  [(".env.ts", .file []), ("node_modules", .dir [("index.js", .file [0x78])]),
    ("blog", .dir [("post.TS", .file [0xFF]), ("node_modules", .file [])])]

theorem isPlain_blog : (Node.dir (("user.ts", .file [0x78]) :: blogEntries)).IsPlain := by
  have hindex : (Node.dir [("index.js", .file [0x78])]).IsPlain :=
    .dir (by decide) (by decide) (List.forall_mem_cons.2 ⟨.file _, nofun⟩)
  have hposts : (Node.dir [("post.TS", .file [0xFF]), ("node_modules", .file [])]).IsPlain :=
    .dir (by decide) (by decide)
      (List.forall_mem_cons.2 ⟨.file _, List.forall_mem_cons.2 ⟨.file _, nofun⟩⟩)
  refine .dir (by decide) (by decide) ?_
  simp only [blogEntries, List.forall_mem_cons]
  exact ⟨.file _, .file _, hindex, hposts, nofun⟩

theorem fitsBelow_blog (opened : Place)
    (h : ScanSettings.Opens { recursive := true }
      (.dir (("user.ts", .file [0x78]) :: blogEntries)) opened) : FitsBelow "/models" opened := by
  have hall : ∀ place ∈ (Node.dir (("user.ts", .file [0x78]) :: blogEntries)).places,
      FitsBelow "/models" place := by decide +kernel
  exact hall opened (Node.mem_places h.isSome_at?)

theorem discoverSources_of_isPlain_blog :
    (modelsDisk blogEntries).locate "/models" = .ok ["models"] ∧
      (Node.dir (("user.ts", .file [0x78]) :: blogEntries)).IsPlain ∧
      (∀ opened, ScanSettings.Opens { recursive := true }
        (.dir (("user.ts", .file [0x78]) :: blogEntries)) opened → FitsBelow "/models" opened) ∧
      ∃ sources,
        discoverSources (modelsDisk blogEntries) "/models" { recursive := true } = .ok sources ∧
        IsListing { recursive := true } "/models"
          (.dir (("user.ts", .file [0x78]) :: blogEntries)) sources ∧
        discoverSources (modelsDisk blogEntries.reverse) "/models" { recursive := true } =
          .ok sources := by
  obtain ⟨sources, hsources, hlisting, horder⟩ := (discoverSources_of_isPlain
    (locate_models blogEntries) rfl isPlain_blog { recursive := true }).1 fitsBelow_blog
  exact ⟨locate_models _, isPlain_blog, fitsBelow_blog, sources, hsources, hlisting,
    horder _ _ _ (locate_models _) rfl (.entries (.cons _ (List.reverse_perm _).symm))⟩

/-! ### A long path -/

/-- The path of a models directory with more slashes in front of it. -/
def paddedRoot (slashes : Nat) : Path := String.ofList (List.replicate slashes '/') ++ "/models"

theorem utf8ByteSize_paddedRoot (slashes : Nat) :
    (paddedRoot slashes).utf8ByteSize = slashes + 7 := by
  rw [paddedRoot, String.utf8ByteSize_append, Path.utf8ByteSize_slashes]
  rfl

theorem locate_paddedRoot (entries : List (String × Node)) {slashes : Nat}
    (h : slashes + 7 < Disk.maxPathBytes) :
    (modelsDisk entries).locate (paddedRoot slashes) = .ok ["models"] := by
  refine Disk.locate_of_follow (by rwa [utf8ByteSize_paddedRoot]) ?_
  rw [paddedRoot, Path.steps_slashes_append, steps_models, Disk.follow_cons, step_models]
  exact Disk.follow_nil _ _ _

/-- The path of the source in it may be too long, though its own is not. -/
theorem discoverSources_paddedRoot {slashes : Nat} (h : slashes + 7 < Disk.maxPathBytes)
    (hlong : Disk.maxPathBytes ≤ slashes + 14) :
    discoverSources (modelsDisk []) (paddedRoot slashes) {} =
      .error (.unreadable ((paddedRoot slashes).join "user.ts") .nameTooLong) := by
  have hname : IsName "user.ts" := by decide
  have hjoin := Path.utf8ByteSize_add_le_join hname (paddedRoot slashes)
  rw [utf8ByteSize_paddedRoot] at hjoin
  have hlocate : (modelsDisk []).locate ((paddedRoot slashes).join "user.ts") =
      .error .nameTooLong := Disk.locate_of_utf8ByteSize_ge (Nat.le_trans hlong hjoin)
  have hread := Disk.read_eq_error_of_locate hlocate
  have huser : walkEntry (modelsDisk []) {} (fun _ _ ↦ .ok [])
      { place := ["models"], path := paddedRoot slashes } [] "" ("user.ts", .file [0x78]) =
        .error (.unreadable ((paddedRoot slashes).join "user.ts") .nameTooLong) := by
    show (readSource (modelsDisk []) ((paddedRoot slashes).join "user.ts")).map _ = _
    rw [readSource, hread]
    rfl
  rw [discoverSources_models (locate_paddedRoot [] h) (by simp), collect, huser]
  rfl

/-- **A source whose path is too long is not found**, also in a directory that can be opened and
holds nothing else. -/
theorem discoverSources_longPath :
    (modelsDisk []).locate (paddedRoot 4083) = .ok ["models"] ∧
      (Node.dir [("user.ts", .file [0x78])]).IsPlain ∧
      ScanSettings.IsSource {} [] "user.ts" ∧
      discoverSources (modelsDisk []) (paddedRoot 4083) {} =
        .error (.unreadable ((paddedRoot 4083).join "user.ts") .nameTooLong) := by
  have hshort : 4083 + 7 < Disk.maxPathBytes := by rw [Disk.maxPathBytes]; omega
  have hlong : Disk.maxPathBytes ≤ 4083 + 14 := by rw [Disk.maxPathBytes]; omega
  exact ⟨locate_paddedRoot [] hshort,
    .dir (by decide) (by decide) (List.forall_mem_cons.2 ⟨.file _, nofun⟩),
    ScanSettings.keeps_iff.1 (by decide), discoverSources_paddedRoot hshort hlong⟩

end SchemaDiagram
