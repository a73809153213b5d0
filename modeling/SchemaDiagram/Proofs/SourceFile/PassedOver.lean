import SchemaDiagram.Proofs.Disk.Removal
import SchemaDiagram.Proofs.SourceFile.Walk

/-!
# Entries that are passed over

Hidden entries and dependency directories should not matter: the same sources are found whether they
are there or not, as long as nothing that stays is reached through them (`OnlyPassedOver`). The walk
resolves a link before it looks at its name, though. So this holds only as far as the hidden links
resolve (`LinksResolve`); one that leads nowhere, or back to a directory that the walk is in, ends
the walk with an error, if nothing before it does (`discoverSources_without`).
-/

namespace SchemaDiagram

variable {disk : Disk} {settings : ScanSettings} {root : Path} {removed : Place → Bool}

/-- The entries at the removed places are passed over by the walk of a models directory, and nothing
that stays is reached through them. -/
structure OnlyPassedOver (disk : Disk) (settings : ScanSettings) (root : Path)
    (removed : Place → Bool) : Prop where
  /-- They are hidden entries and dependency directories. -/
  passedOver : ∀ place name node, removed (place ++ [name]) →
    (name, node) ∈ disk.entriesAt place → isPassedOver name node.isDir
  /-- The models directory is not reached through them. -/
  root_kept : ∀ p ∈ disk.onTheWay root, removed p = false
  /-- No other link that the walk comes to leads into them. -/
  links_kept : ∀ dir outer, Entered disk settings root dir outer → ∀ name target,
    (name, .link target) ∈ disk.entriesAt dir.place → removed (dir.place ++ [name]) = false →
      ∀ p ∈ disk.onTheWay (dir.path.join name), removed p = false

/-- Each link at a removed place that the walk comes to leads somewhere, and not to a directory that
the walk is in. -/
def LinksResolve (disk : Disk) (settings : ScanSettings) (root : Path) (removed : Place → Bool) :
    Prop :=
  ∀ dir outer, Entered disk settings root dir outer → ∀ name target,
    (name, .link target) ∈ disk.entriesAt dir.place → removed (dir.place ++ [name]) →
      ∃ place, entryPlace disk (dir :: outer) dir.place (dir.path.join name) name (.link target) =
        .ok place

/-! ### One entry -/

/-- What is passed over as a file is passed over as a directory, too. -/
theorem isPassedOver_of_file {name : String} (h : isPassedOver name false) (isDir : Bool) :
    isPassedOver name isDir := by
  have hhidden : (name.toList.head? == some '.') = true := by simpa [isPassedOver] using h
  rw [isPassedOver, hhidden, Bool.true_or]

theorem walkPlace_of_isPassedOver {inside : Path → Path → Except ScanError (List SourceFile)}
    {path relativePath : Path} {name : String} {place : Place}
    (h : ∀ node, disk.at? place = some node → isPassedOver name node.isDir) :
    walkPlace disk settings inside path relativePath name place = .ok [] := by
  unfold walkPlace
  split
  · next entries hentries =>
    have hname : isPassedOver name true := h _ hentries
    rw [hname, if_pos rfl]
  · next bytes hbytes =>
    have hname : isPassedOver name false := h _ hbytes
    rw [hname, Bool.true_or, if_pos rfl]
  · rfl

/-- An entry that is removed has added nothing, if it could be followed. -/
theorem walkEntry_of_removed (h : OnlyPassedOver disk settings root removed)
    (hresolve : LinksResolve disk settings root removed) {dir : Visited} {outer : List Visited}
    (hdir : Entered disk settings root dir outer)
    {inside : Path → Path → Except ScanError (List SourceFile)} {relative : Path}
    {entry : String × Node} (hentry : entry ∈ disk.entriesAt dir.place)
    (hremoved : removed (dir.place ++ [entry.1])) :
    walkEntry disk settings inside dir outer relative entry = .ok [] := by
  obtain ⟨name, node⟩ := entry
  obtain ⟨-, -, -, hname⟩ := Disk.mem_entriesAt_iff.1 hentry
  have hstays : walkPlace disk settings inside (dir.path.join name) (entryRelative relative name)
      name (dir.place ++ [name]) = .ok [] :=
    walkPlace_of_isPassedOver fun node hnode ↦
      h.passedOver dir.place name node hremoved (Disk.mem_entriesAt_of_at? hname hnode)
  cases node with
  | link target =>
    obtain ⟨place, hplace⟩ := hresolve dir outer hdir name target hentry hremoved
    rw [walkEntry_of_ok hplace]
    have hpassed := h.passedOver dir.place name _ hremoved hentry
    exact walkPlace_of_isPassedOver fun node _ ↦ isPassedOver_of_file hpassed node.isDir
  | file bytes =>
    rw [walkEntry_of_ok rfl]
    exact hstays
  | dir entries =>
    rw [walkEntry_of_ok rfl]
    exact hstays

/-- An entry that stays leads to where it led before. -/
theorem entryPlace_without (visited : List Visited) (place : Place) {path : Path} (name : String)
    {node : Node}
    (h : ∀ target, node = .link target → ∀ p ∈ disk.onTheWay path, removed p = false) :
    entryPlace (disk.without removed) visited place path name
        (node.without removed (place ++ [name])) =
      entryPlace disk visited place path name node := by
  cases node with
  | file bytes => rw [Node.without]; rfl
  | dir entries => rw [Node.without]; rfl
  | link target =>
    have hway := h target rfl
    rw [Node.without, entryPlace, entryPlace, Disk.locate_without hway]
    cases hplace : disk.locate path with
    | error e => rfl
    | ok found =>
      simp only
      rw [show ((disk.without removed).at? found).any Node.isDir =
        (disk.at? found).any Node.isDir from
          Disk.isDirectoryAt_without (Disk.isKept_of_locate hway hplace)]

/-- The place that an entry leads to is kept with the entry. -/
theorem isKept_of_entryPlace {visited : List Visited} {place found : Place} {path : Path}
    {name : String} {node : Node} (hplace : place.IsKept removed)
    (hname : removed (place ++ [name]) = false)
    (hway : ∀ target, node = .link target → ∀ p ∈ disk.onTheWay path, removed p = false)
    (h : entryPlace disk visited place path name node = .ok found) : found.IsKept removed := by
  rcases of_entryPlace_eq_ok h with ⟨⟨target, hlink⟩, hfound⟩ | ⟨-, rfl⟩
  · exact Disk.isKept_of_locate (hway target hlink) hfound
  · exact Place.IsKept.concat_iff.2 ⟨hplace, hname⟩

/-- On the way to an entry that stays nothing is removed. -/
theorem isKept_onTheWay_join (h : OnlyPassedOver disk settings root removed) {dir : Visited}
    {outer : List Visited} (hdir : Entered disk settings root dir outer)
    (hway : ∀ p ∈ disk.onTheWay dir.path, removed p = false) {name : String} {node : Node}
    (hentry : (name, node) ∈ disk.entriesAt dir.place)
    (hstays : removed (dir.place ++ [name]) = false) {found : Place}
    (hfollow : entryPlace disk (dir :: outer) dir.place (dir.path.join name) name node = .ok found)
    (hlink : ∀ target, disk.at? found ≠ some (.link target)) :
    ∀ p ∈ disk.onTheWay (dir.path.join name), removed p = false := by
  obtain ⟨-, -, -, hname⟩ := Disk.mem_entriesAt_iff.1 hentry
  rcases of_entryPlace_eq_ok hfollow with ⟨⟨target, rfl⟩, -⟩ | ⟨-, rfl⟩
  · exact h.links_kept dir outer hdir name target hentry hstays
  · intro p hp
    have hplace := (Disk.locateDirectory_eq_ok_iff.1 hdir.locateDirectory).1
    rcases Disk.onTheWay_join hplace hname hlink hp with hp | rfl
    · exact hway p hp
    · exact hstays

/-- What a place adds is the same where the place is kept. -/
theorem walkPlace_without {inside inside' : Path → Path → Except ScanError (List SourceFile)}
    {path relativePath : Path} {name : String} {place : Place} (hplace : place.IsKept removed)
    (hread : ∀ bytes, disk.at? place = some (.file bytes) →
      (disk.without removed).read path = disk.read path)
    (hinside : disk.isDirectoryAt place → isPassedOver name true = false →
      inside' path relativePath = inside path relativePath) :
    walkPlace (disk.without removed) settings inside' path relativePath name place =
      walkPlace disk settings inside path relativePath name place := by
  rw [← walkPlace_congr hinside, walkPlace, walkPlace, Disk.at?_without hplace]
  cases hnode : disk.at? place with
  | none => rfl
  | some node =>
    cases node with
    | file bytes => simp [Node.without, readSource, hread bytes hnode]
    | link target => simp [Node.without]
    | dir entries => simp [Node.without]

/-! ### The whole walk -/

theorem entriesAt_without {place : Place} (h : place.IsKept removed) :
    (disk.without removed).entriesAt place =
      ((disk.entriesAt place).filter fun entry ↦ !removed (place ++ [entry.1])).map fun entry ↦
        (entry.1, entry.2.without removed (place ++ [entry.1])) := by
  rw [Disk.entriesAt, Disk.entriesAt, Disk.at?_without h]
  rcases disk.at? place with _ | _ | _ | entries
  · rfl
  · rfl
  · rfl
  · simp only [Option.map_some, Node.without]
    rw [Node.withoutEntries_eq, List.filter_map, List.filter_filter, List.filter_filter]
    simp only [Function.comp_def, Bool.and_comm]

/-- The walk finds the same sources, or fails for the same reason. -/
theorem walk_without (h : OnlyPassedOver disk settings root removed)
    (hresolve : LinksResolve disk settings root removed) {depth : Nat}
    (hdepth : settings.recursive = false → depth ≤ 1) {path : Path} {outer : List Visited}
    (hentered : ∀ place, disk.locateDirectory path = .ok place →
      Entered disk settings root { place, path } outer)
    (hway : ∀ p ∈ disk.onTheWay path, removed p = false) (relative : Path) :
    walk (disk.without removed) settings depth path outer relative =
      walk disk settings depth path outer relative := by
  induction depth generalizing path outer relative with
  | zero => rfl
  | succ depth ih =>
    have hopen := Disk.locateDirectory_without hway
    cases hplace : disk.locateDirectory path with
    | error e =>
      rw [hplace] at hopen
      rw [walk_of_locateDirectory_eq_error hopen, walk_of_locateDirectory_eq_error hplace]
    | ok place =>
      rw [hplace] at hopen
      have hdir := hentered place hplace
      have hkept : place.IsKept removed :=
        Disk.isKept_of_locate hway (Disk.locateDirectory_eq_ok_iff.1 hplace).1
      rw [walk_of_locateDirectory ⟨place, path⟩ hopen, walk_of_locateDirectory ⟨place, path⟩ hplace,
        entriesAt_without hkept, collect_map]
      have hremoved : ∀ entry ∈ disk.entriesAt place, (!removed (place ++ [entry.1])) = false →
          walkEntry disk settings
            (fun inner ↦ walk disk settings depth inner ({ place, path } :: outer))
            { place, path } outer relative entry = .ok [] :=
        fun entry hentry hremoved ↦
          walkEntry_of_removed h hresolve hdir hentry (by simpa using hremoved)
      -- what is removed has added nothing, so both walks add up what the entries that stay add
      rw [← collect_filter hremoved]
      refine collect_congr fun ⟨name, node⟩ hmem ↦ ?_
      obtain ⟨hentry, hkeeps⟩ := List.mem_filter.1 hmem
      have hstays : removed (place ++ [name]) = false := by simpa using hkeeps
      obtain ⟨-, -, -, hname⟩ := Disk.mem_entriesAt_iff.1 hentry
      have hlinks : ∀ target, node = .link target →
          ∀ p ∈ disk.onTheWay (path.join name), removed p = false := by
        rintro target rfl
        exact h.links_kept _ outer hdir name target hentry hstays
      have hfollow' := entryPlace_without ({ place, path } :: outer) place name hlinks
      cases hfollow :
        entryPlace disk ({ place, path } :: outer) place (path.join name) name node with
      | error e =>
        rw [hfollow] at hfollow'
        rw [walkEntry_of_error hfollow', walkEntry_of_error hfollow]
      | ok found =>
        rw [hfollow] at hfollow'
        rw [walkEntry_of_ok hfollow', walkEntry_of_ok hfollow]
        have hentryWay := isKept_onTheWay_join h hdir hway hentry hstays hfollow
        refine walkPlace_without (isKept_of_entryPlace hkept hstays hlinks hfollow)
          (fun bytes hfile ↦ ?_) fun hdirectory hpassed ↦ ?_
        · exact Disk.read_without (hentryWay (by simp [hfile]))
        -- only a search of subdirectories goes on inside, where the walk has come to as well
        cases hrecursive : settings.recursive with
        | false =>
          obtain rfl : depth = 0 := by
            have := hdepth hrecursive
            omega
          rfl
        | true =>
          obtain ⟨entries, hentries⟩ := Disk.isDirectoryAt_iff.1 hdirectory
          obtain ⟨hdot, hdots⟩ := ne_dots_of_isPassedOver_eq_false hpassed
          refine ih (by simp [hrecursive]) (fun place' hplace' ↦ ?_)
            (hentryWay (by simp [hentries])) _
          obtain rfl : place' = found := eq_of_entryPlace hplace hname hdot hdots hfollow hentries
            (by simp) (Disk.locateDirectory_eq_ok_iff.1 hplace').1
          exact hdir.inside hrecursive hentry hfollow hplace' hpassed

/-- The same sources are found if every removed link has led somewhere. -/
theorem discoverSources_without_of_linksResolve (h : OnlyPassedOver disk settings root removed)
    (hresolve : LinksResolve disk settings root removed) :
    discoverSources (disk.without removed) root settings = discoverSources disk root settings := by
  have hopen := Disk.locateDirectory_without h.root_kept
  have hdirectory : (disk.without removed).isDirectory root = disk.isDirectory root := by
    rw [Bool.eq_iff_iff, Disk.isDirectory_iff, Disk.isDirectory_iff, hopen]
  have hdepth : settings.recursive = false → walkDepth settings ≤ 1 := fun hrecursive ↦ by
    rw [walkDepth, hrecursive]
    exact Nat.le_refl 1
  rw [discoverSources, discoverSources, hdirectory,
    walk_without h hresolve hdepth (fun place hplace ↦ .root hplace) h.root_kept]

/-- A removed link that does not resolve has ended the walk, unless it had ended before. -/
theorem discoverSources_eq_error_of_not_linksResolve
    (h : ¬LinksResolve disk settings root removed) :
    ∃ e, discoverSources disk root settings = .error e := by
  unfold LinksResolve at h
  push Not at h
  obtain ⟨dir, outer, hdir, name, target, hentry, -, hplace⟩ := h
  cases he : entryPlace disk (dir :: outer) dir.place (dir.path.join name) name (.link target) with
  | ok found => exact absurd he (hplace found)
  | error e =>
    obtain ⟨e', he'⟩ := hdir.walk_eq_error hentry he
    exact ⟨e', by rw [discoverSources, if_pos hdir.isDirectory, he']; rfl⟩

/-- **What is passed over does not matter, as far as its links resolve.** With a removed link that
does not, the walk has failed. -/
theorem discoverSources_without (h : OnlyPassedOver disk settings root removed) :
    (LinksResolve disk settings root removed →
      discoverSources (disk.without removed) root settings =
        discoverSources disk root settings) ∧
    (¬LinksResolve disk settings root removed →
      ∃ e, discoverSources disk root settings = .error e) :=
  ⟨discoverSources_without_of_linksResolve h, discoverSources_eq_error_of_not_linksResolve⟩

/-! ### Two models directories -/

/-- A models directory with one source and some other entries. -/
def modelsDisk (entries : List (String × Node)) : Disk where
  root := .dir [("models", .dir (("user.ts", .file [0x78]) :: entries))]

/-- The places of some entries of it. -/
def atModels (names : List String) (place : Place) : Bool :=
  names.any fun name ↦ place = ["models", name]

theorem of_atModels {names : List String} {place : Place} {name : String}
    (h : atModels names (place ++ [name])) : place = ["models"] ∧ name ∈ names := by
  obtain ⟨other, hother, hplace⟩ := List.any_eq_true.1 h
  have hplace : place ++ [name] = ["models"] ++ [other] := by simpa using hplace
  obtain ⟨rfl, hname⟩ := List.append_inj' hplace rfl
  obtain rfl : name = other := by simpa using hname
  exact ⟨rfl, hother⟩

section ModelsDisk

variable (entries : List (String × Node))

theorem step_models (rest : List String) :
    (modelsDisk entries).step Disk.maxLinks [] "models" rest = .goesOn 40 ["models"] rest :=
  rfl

theorem steps_models : Path.steps "/models" = ["models"] := by decide

theorem locate_models : (modelsDisk entries).locate "/models" = .ok ["models"] := by
  refine Disk.locate_of_follow (by decide) ?_
  rw [steps_models, Disk.follow_cons, step_models]
  exact Disk.follow_nil _ _ _

theorem locateDirectory_models : (modelsDisk entries).locateDirectory "/models" = .ok ["models"] :=
  Disk.locateDirectory_eq_ok_iff.2 ⟨locate_models entries, rfl⟩

theorem entriesAt_models : (modelsDisk entries).entriesAt ["models"] =
    (("user.ts", .file [0x78]) :: entries).filter fun entry ↦ Node.IsName entry.1 :=
  rfl

theorem onTheWay_models : (modelsDisk entries).onTheWay "/models" = [["models"]] := by
  rw [Disk.onTheWay, steps_models, Disk.lookedAt_cons, step_models]
  simp [Disk.lookedAt]

/-- Where subdirectories are not searched, entries are passed over by their names. -/
theorem onlyPassedOver_models {entries : List (String × Node)} {names : List String}
    (hnames : ∀ entry ∈ ("user.ts", .file [0x78]) :: entries, entry.1 ∈ names →
      isPassedOver entry.1 entry.2.isDir)
    (hlinks : ∀ name target, (name, .link target) ∈ entries → name ∉ names →
      ∀ p ∈ (modelsDisk entries).onTheWay (Path.join "/models" name), atModels names p = false) :
    OnlyPassedOver (modelsDisk entries) {} "/models" (atModels names) where
  passedOver place name node hremoved hentry := by
    obtain ⟨rfl, hname⟩ := of_atModels hremoved
    rw [entriesAt_models] at hentry
    exact hnames (name, node) (List.mem_filter.1 hentry).1 hname
  root_kept p hp := by
    rw [onTheWay_models, List.mem_singleton] at hp
    subst hp
    simp [atModels]
  links_kept dir outer hdir name target hentry hname := by
    obtain ⟨place, hplace, rfl, rfl⟩ := hdir.eq_root rfl
    obtain rfl := Except.ok.inj (hplace.symm.trans (locateDirectory_models entries))
    refine hlinks name target ?_ fun hmem ↦ ?_
    · rw [entriesAt_models] at hentry
      rcases List.mem_cons.1 (List.mem_filter.1 hentry).1 with heq | hentry
      · cases heq
      · exact hentry
    · have hremoved : atModels names (["models"] ++ [name]) = true :=
        List.any_eq_true.2 ⟨name, hmem, by simp⟩
      rw [hremoved] at hname
      cases hname

end ModelsDisk

/-- A link that stays, and what is passed over: a link, a directory and the dependencies. -/
def dottedDisk : Disk :=
  modelsDisk [("alias.ts", .link "user.ts"), (".env.ts", .link "user.ts"),
    (".git", .dir [("config", .file [])]), ("node_modules", .dir [("index.js", .file [])])]

/-- The names of what is passed over. -/
def dottedNames : List String := [".env.ts", ".git", "node_modules"]

theorem onTheWay_alias : dottedDisk.onTheWay (Path.join "/models" "alias.ts") =
    [["models"], ["models", "alias.ts"], ["models", "user.ts"]] := by
  have hsteps : Path.steps (Path.join "/models" "alias.ts") = ["models", "alias.ts"] := by decide
  have hmodels : dottedDisk.step Disk.maxLinks [] "models" ["alias.ts"] =
      .goesOn 40 ["models"] ["alias.ts"] := rfl
  have halias : dottedDisk.step 40 ["models"] "alias.ts" [] =
      .goesOn 39 ["models"] ["user.ts"] := rfl
  have huser : dottedDisk.step 39 ["models"] "user.ts" [] =
      .goesOn 39 ["models", "user.ts"] [] := rfl
  rw [Disk.onTheWay, hsteps]
  simp only [Disk.lookedAt_cons, hmodels, halias, huser]
  simp [Disk.lookedAt]

theorem locate_env : dottedDisk.locate (Path.join "/models" ".env.ts") =
    .ok ["models", "user.ts"] := by
  have hsteps : Path.steps (Path.join "/models" ".env.ts") = ["models", ".env.ts"] := by decide
  have hmodels : dottedDisk.step Disk.maxLinks [] "models" [".env.ts"] =
      .goesOn 40 ["models"] [".env.ts"] := rfl
  have henv : dottedDisk.step 40 ["models"] ".env.ts" [] = .goesOn 39 ["models"] ["user.ts"] := rfl
  have huser : dottedDisk.step 39 ["models"] "user.ts" [] =
      .goesOn 39 ["models", "user.ts"] [] := rfl
  refine Disk.locate_of_follow (by decide) ?_
  simp only [hsteps, Disk.follow_cons, hmodels, henv, huser, Disk.follow_nil]

theorem onlyPassedOver_dotted :
    OnlyPassedOver dottedDisk {} "/models" (atModels dottedNames) := by
  refine onlyPassedOver_models (by decide) fun name target hentry hname ↦ ?_
  obtain rfl : name = "alias.ts" := by
    simp only [List.mem_cons, Prod.mk.injEq, reduceCtorEq, and_false, List.not_mem_nil,
      or_false] at hentry
    rcases hentry with ⟨rfl, -⟩ | ⟨rfl, -⟩
    · rfl
    · exact absurd (by decide) hname
  rw [show modelsDisk _ = dottedDisk from rfl, onTheWay_alias]
  decide

theorem linksResolve_dotted : LinksResolve dottedDisk {} "/models" (atModels dottedNames) := by
  intro dir outer hdir name target hentry hremoved
  obtain ⟨place, hplace, rfl, rfl⟩ := hdir.eq_root rfl
  obtain rfl := Except.ok.inj (hplace.symm.trans (locateDirectory_models _))
  have hname := (of_atModels hremoved).2
  obtain ⟨rfl, rfl⟩ : name = ".env.ts" ∧ target = "user.ts" := by
    have hentry : (name, Node.link target) ∈ [("user.ts", Node.file [0x78]),
        ("alias.ts", .link "user.ts"), (".env.ts", .link "user.ts"),
        (".git", .dir [("config", .file [])]), ("node_modules", .dir [("index.js", .file [])])] :=
      (List.mem_filter.1 hentry).1
    simp only [List.mem_cons, Prod.mk.injEq, reduceCtorEq, and_false, List.not_mem_nil, or_false,
      false_or, Node.link.injEq] at hentry
    rcases hentry with ⟨rfl, -⟩ | hentry
    · exact absurd hname (by decide)
    · exact hentry
  exact ⟨["models", "user.ts"], by rw [entryPlace, locate_env]; rfl⟩

theorem discoverSources_without_dotted :
    OnlyPassedOver dottedDisk {} "/models" (atModels dottedNames) ∧
      LinksResolve dottedDisk {} "/models" (atModels dottedNames) ∧
      discoverSources (dottedDisk.without (atModels dottedNames)) "/models" {} =
        discoverSources dottedDisk "/models" {} :=
  ⟨onlyPassedOver_dotted, linksResolve_dotted,
    (discoverSources_without onlyPassedOver_dotted).1 linksResolve_dotted⟩

/-- A hidden link that leads nowhere. -/
def lockedDisk : Disk := modelsDisk [(".lock", .link "nowhere")]

theorem locate_lock : lockedDisk.locate "/models/.lock" = .error .notFound := by
  have hsteps : Path.steps "/models/.lock" = ["models", ".lock"] := by decide
  have hmodels : lockedDisk.step Disk.maxLinks [] "models" [".lock"] =
      .goesOn 40 ["models"] [".lock"] := rfl
  have hlock : lockedDisk.step 40 ["models"] ".lock" [] = .goesOn 39 ["models"] ["nowhere"] := rfl
  have hnowhere : lockedDisk.step 39 ["models"] "nowhere" [] =
      .ends (.ok (.free ["models", "nowhere"])) := rfl
  rw [Disk.locate, Disk.resolve, if_neg (by decide)]
  simp only [hsteps, Disk.follow_cons, hmodels, hlock, hnowhere]

/-- What is found in a models directory with other entries, if subdirectories are not searched. -/
theorem discoverSources_models {entries : List (String × Node)} {root : Path}
    (hroot : (modelsDisk entries).locate root = .ok ["models"])
    (hnames : ∀ entry ∈ entries, Node.IsName entry.1) :
    discoverSources (modelsDisk entries) root {} =
      (collect
        (walkEntry (modelsDisk entries) {} (fun _ _ ↦ .ok [])
          { place := ["models"], path := root } [] "")
        (("user.ts", .file [0x78]) :: entries)).map
          fun sources ↦ sources.mergeSort fun a b ↦ decide (a.relativePath ≤ b.relativePath) := by
  have hopen : (modelsDisk entries).locateDirectory root = .ok ["models"] :=
    Disk.locateDirectory_eq_ok_iff.2 ⟨hroot, rfl⟩
  have hentries : (modelsDisk entries).entriesAt ["models"] =
      ("user.ts", .file [0x78]) :: entries := by
    rw [entriesAt_models, List.filter_eq_self]
    simpa using ⟨by decide, fun name node hentry ↦ hnames (name, node) hentry⟩
  rw [discoverSources, if_pos (Disk.isDirectory_iff.2 ⟨_, hopen⟩), walkDepth, if_neg (by decide),
    walk_of_locateDirectory ⟨["models"], root⟩ hopen, hentries]
  rfl

theorem read_user (entries : List (String × Node)) :
    (modelsDisk entries).read (Path.join "/models" "user.ts") = .ok [0x78] := by
  have hat : (modelsDisk entries).at? (["models"] ++ ["user.ts"]) = some (.file [0x78]) := rfl
  have huser := Disk.locate_join (locateDirectory_models entries) (by decide) (by decide)
    (by decide) hat nofun
  rw [if_neg (by decide)] at huser
  exact Disk.read_eq_ok_iff.2 ⟨_, huser, rfl⟩

/-- **A hidden link that leads nowhere is noticed**: without it the source would be found. -/
theorem discoverSources_without_lock :
    OnlyPassedOver lockedDisk {} "/models" (atModels [".lock"]) ∧
      discoverSources lockedDisk "/models" {} =
        .error (.walk (.unreachable "/models/.lock" .notFound)) ∧
      discoverSources (lockedDisk.without (atModels [".lock"])) "/models" {} =
        .ok [{ path := "/models/user.ts", relativePath := "user.ts", name := "user.ts",
               text := "x" }] := by
  have htext : Text.decodeLossy [0x78] = "x" := by
    rw [Text.decodeLossy, Text.readChars, show (Text.readChar 0x78 []).2 = [] from rfl,
      Text.readChars]
    rfl
  have huser : ∀ entries, walkEntry (modelsDisk entries) {} (fun _ _ ↦ .ok [])
      { place := ["models"], path := "/models" } [] "" ("user.ts", .file [0x78]) =
        .ok [{ path := "/models/user.ts", relativePath := "user.ts", name := "user.ts",
               text := "x" }] := by
    intro entries
    show (readSource (modelsDisk entries) (Path.join "/models" "user.ts")).map _ = _
    rw [readSource, read_user, ← htext]
    rfl
  refine ⟨onlyPassedOver_models (by decide) fun name target hentry hname ↦ ?_, ?_, ?_⟩
  · simp only [List.mem_singleton, Prod.mk.injEq] at hentry
    exact absurd (List.mem_singleton.2 hentry.1) hname
  · have hlock : entryPlace lockedDisk [{ place := ["models"], path := "/models" }] ["models"]
        (Path.join "/models" ".lock") ".lock" (.link "nowhere") =
          .error (.walk (.unreachable "/models/.lock" .notFound)) := by
      rw [show Path.join "/models" ".lock" = "/models/.lock" by decide, entryPlace, locate_lock]
    rw [lockedDisk, discoverSources_models (locate_models _) (by decide), collect, huser, collect,
      ← lockedDisk, walkEntry_of_error hlock]
    rfl
  · rw [show lockedDisk.without (atModels [".lock"]) = modelsDisk [] from rfl,
      discoverSources_models (locate_models _) (by decide), collect, huser, collect]
    simp [Except.bind, Except.map]

end SchemaDiagram
