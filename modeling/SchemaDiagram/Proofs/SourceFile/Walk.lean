import SchemaDiagram.Proofs.Disk.Entry
import SchemaDiagram.SourceFile

/-!
# The walk of a models directory

The walk opens one directory after the other and adds up what its entries add
(`walk_of_locateDirectory`), which is decided by the place that an entry leads to (`walkEntry`). The
number of levels that the walk may enter stands for its end and never cuts it short: the path of an
entry is longer than the one of its directory, and a path that is too long is not opened
(`budget_join_lt`). So the result does not depend on the bound (`walk_eq_of_budget_lt`), and an
entry that cannot be followed is always found out, however deep it lies (`walk_eq_error`).
-/

namespace SchemaDiagram

/-! ### One list for each item -/

/-- The lists that `f` gives for the items, one behind the other, or the first error. -/
def collect {α β ε : Type} (f : α → Except ε (List β)) : List α → Except ε (List β)
  | [] => .ok []
  | a :: items => (f a).bind fun found ↦ (collect f items).map (found ++ ·)

section Collect

variable {α β ε : Type} {f g : α → Except ε (List β)} {items : List α}

theorem mapM_flatten_eq_collect (f : α → Except ε (List β)) (items : List α) :
    (items.mapM f).map List.flatten = collect f items := by
  induction items with
  | nil => rfl
  | cons a items ih =>
    rw [List.mapM_cons, collect, ← ih]
    cases f a with
    | error e => rfl
    | ok found => cases items.mapM f <;> rfl

theorem collect_congr (h : ∀ a ∈ items, f a = g a) : collect f items = collect g items := by
  induction items with
  | nil => rfl
  | cons a items ih =>
    rw [collect, collect, h a List.mem_cons_self,
      ih fun b hb ↦ h b (List.mem_cons_of_mem a hb)]

theorem collect_map {γ : Type} (f : α → Except ε (List β)) (g : γ → α) (items : List γ) :
    collect f (items.map g) = collect (fun a ↦ f (g a)) items := by
  induction items with
  | nil => rfl
  | cons a items ih => rw [List.map_cons, collect, collect, ih]

/-- Items that add nothing may be left out. -/
theorem collect_filter {p : α → Bool} (h : ∀ a ∈ items, p a = false → f a = .ok []) :
    collect f (items.filter p) = collect f items := by
  induction items with
  | nil => rfl
  | cons a items ih =>
    have ih := ih fun b hb ↦ h b (List.mem_cons_of_mem a hb)
    rw [collect]
    cases hp : p a with
    | true => rw [List.filter_cons_of_pos hp, collect, ih]
    | false =>
      rw [List.filter_cons_of_neg (by simp [hp]), h a List.mem_cons_self hp, ih]
      cases collect f items <;> rfl

/-- Where no item fails, all that they add is collected. -/
theorem collect_eq_ok {g : α → List β} (h : ∀ a ∈ items, f a = .ok (g a)) :
    collect f items = .ok (items.flatMap g) := by
  induction items with
  | nil => rfl
  | cons a items ih =>
    rw [collect, h a List.mem_cons_self, ih fun b hb ↦ h b (List.mem_cons_of_mem a hb)]
    rfl

/-- An error of one item is an error of all, though another one may come first. -/
theorem collect_eq_error {a : α} (ha : a ∈ items) {e : ε} (h : f a = .error e) :
    ∃ e, collect f items = .error e := by
  induction items with
  | nil => cases ha
  | cons b items ih =>
    rw [collect]
    cases hb : f b with
    | error e' => exact ⟨e', rfl⟩
    | ok found =>
      have hitems : a ∈ items := by
        rcases List.mem_cons.1 ha with rfl | hitems
        · rw [h] at hb; cases hb
        · exact hitems
      obtain ⟨e', he'⟩ := ih hitems
      exact ⟨e', by rw [he']; rfl⟩

end Collect

/-! ### Entries -/

variable {disk : Disk} {settings : ScanSettings} {dir : Visited} {outer : List Visited}

theorem not_isPassedOver_iff {name : String} {isDir : Bool} :
    isPassedOver name isDir = false ↔
      name.toList.head? ≠ some '.' ∧ (isDir → name ≠ "node_modules") := by
  simp [isPassedOver]

/-- What is not passed over has a name of its own. -/
theorem ne_dots_of_isPassedOver_eq_false {name : String} {isDir : Bool}
    (h : isPassedOver name isDir = false) : name ≠ "." ∧ name ≠ ".." := by
  constructor
  · rintro rfl
    cases isDir <;> exact absurd h (by decide)
  · rintro rfl
    cases isDir <;> exact absurd h (by decide)

/-- The path of an entry within the models directory. -/
def entryRelative (relative : Path) (name : String) : Path :=
  if relative.isEmpty then name else relative ++ "/" ++ name

/-- What an entry that leads to a place adds to the sources, given what a directory adds. -/
def walkPlace (disk : Disk) (settings : ScanSettings)
    (inside : Path → Path → Except ScanError (List SourceFile)) (path relativePath : Path)
    (name : String) (place : Place) : Except ScanError (List SourceFile) :=
  match disk.at? place with
  | some (.dir _) => if isPassedOver name true then .ok [] else inside path relativePath
  | some (.file _) =>
    if isPassedOver name false || !settings.selects name then .ok []
    else (readSource disk path).map fun text ↦ [{ path, relativePath, name, text }]
  | _ => .ok []

/-- What an entry of a directory adds to the sources, given what a directory adds. -/
def walkEntry (disk : Disk) (settings : ScanSettings)
    (inside : Path → Path → Except ScanError (List SourceFile)) (dir : Visited)
    (outer : List Visited) (relative : Path) (entry : String × Node) :
    Except ScanError (List SourceFile) :=
  (entryPlace disk (dir :: outer) dir.place (dir.path.join entry.1) entry.1 entry.2).bind
    (walkPlace disk settings inside (dir.path.join entry.1) (entryRelative relative entry.1)
      entry.1)

section WalkEntry

variable {inside : Path → Path → Except ScanError (List SourceFile)} {relative : Path}
  {name : String} {node : Node}

theorem walkEntry_of_ok {place : Place}
    (h : entryPlace disk (dir :: outer) dir.place (dir.path.join name) name node = .ok place) :
    walkEntry disk settings inside dir outer relative (name, node) =
      walkPlace disk settings inside (dir.path.join name) (entryRelative relative name) name
        place := by
  rw [walkEntry, h]
  rfl

theorem walkEntry_of_error {e : ScanError}
    (h : entryPlace disk (dir :: outer) dir.place (dir.path.join name) name node = .error e) :
    walkEntry disk settings inside dir outer relative (name, node) = .error e := by
  rw [walkEntry, h]
  rfl

end WalkEntry

/-- The walk adds up what the entries of the directory add. -/
theorem walk_of_locateDirectory (dir : Visited)
    (h : disk.locateDirectory dir.path = .ok dir.place) (depth : Nat) (relative : Path) :
    walk disk settings (depth + 1) dir.path outer relative =
      collect (walkEntry disk settings
        (fun path ↦ walk disk settings depth path (dir :: outer)) dir outer relative)
        (disk.entriesAt dir.place) := by
  rw [← mapM_flatten_eq_collect, walk, openDirectory, h]
  rfl

/-- A directory that cannot be opened ends the walk. -/
theorem walk_of_locateDirectory_eq_error {path : Path} {e : DiskError}
    (h : disk.locateDirectory path = .error e) (depth : Nat) (relative : Path) :
    walk disk settings (depth + 1) path outer relative = .error (.walk (.unreachable path e)) := by
  rw [walk, openDirectory, h]
  rfl

/-- A link leads to a place that is not the one of a directory that the walk is in; anything else
stays where it is. -/
theorem of_entryPlace_eq_ok {visited : List Visited} {place found : Place} {path : Path}
    {name : String} {node : Node} (h : entryPlace disk visited place path name node = .ok found) :
    (∃ target, node = .link target) ∧ disk.locate path = .ok found ∨
      (∀ target, node ≠ .link target) ∧ found = place ++ [name] := by
  unfold entryPlace at h
  split at h
  · next target =>
    refine .inl ⟨⟨target, rfl⟩, ?_⟩
    split at h
    · cases h
    · next there hthere =>
      split at h
      · cases h
      · rw [hthere, Except.ok.inj h]
  · next hlink => exact .inr ⟨hlink, (Except.ok.inj h).symm⟩

/-- The path of an entry leads to where the entry leads. -/
theorem eq_of_entryPlace {visited : List Visited} {place found : Place} {path : Path}
    {name : String} {node target : Node} (hdir : disk.locateDirectory path = .ok place)
    (hname : Node.IsName name) (hdot : name ≠ ".") (hdots : name ≠ "..")
    (h : entryPlace disk visited place (path.join name) name node = .ok found)
    (htarget : disk.at? found = some target) (hlink : ∀ other, target ≠ .link other)
    {place' : Place} (hplace' : disk.locate (path.join name) = .ok place') : place' = found := by
  rcases of_entryPlace_eq_ok h with ⟨-, hfound⟩ | ⟨-, rfl⟩
  · exact Except.ok.inj (hplace'.symm.trans hfound)
  · exact Disk.eq_of_locate_join hdir hname hdot hdots htarget hlink hplace'

/-- What an entry adds depends on the rest of the walk only if it is a directory to be entered. -/
theorem walkPlace_congr {inside inside' : Path → Path → Except ScanError (List SourceFile)}
    {path relativePath : Path} {name : String} {place : Place}
    (h : disk.isDirectoryAt place → isPassedOver name true = false →
      inside path relativePath = inside' path relativePath) :
    walkPlace disk settings inside path relativePath name place =
      walkPlace disk settings inside' path relativePath name place := by
  unfold walkPlace
  split
  · next entries hentries =>
    cases hpassed : isPassedOver name true with
    | true => rfl
    | false => exact h (Disk.isDirectoryAt_iff.2 ⟨entries, hentries⟩) hpassed
  · rfl
  · rfl

/-! ### The walk comes to an end -/

/-- A bound on the levels that lie ahead of the walk: by so many bytes a path can still grow. -/
def budget (dir : Path) : Nat := Disk.maxPathBytes - dir.utf8ByteSize

/-- Entering a directory brings the walk nearer to its end. -/
theorem budget_join_lt {path : Path} {place : Place} {name : String}
    (hdir : disk.locateDirectory path = .ok place) (hname : Node.IsName name) :
    budget (path.join name) < budget path := by
  have hshort := Disk.utf8ByteSize_lt_of_locate (Disk.locateDirectory_eq_ok_iff.1 hdir).1
  have hlonger := Path.utf8ByteSize_lt_join hname path
  rw [budget, budget]
  omega

/-- **The bound on the levels does not matter**, as long as it is large enough. -/
theorem walk_eq_of_budget_lt {n m : Nat} {path relative : Path} (hn : budget path < n)
    (hm : budget path < m) :
    walk disk settings n path outer relative = walk disk settings m path outer relative := by
  induction n generalizing m path outer relative with
  | zero => omega
  | succ n ih =>
    obtain ⟨m, rfl⟩ : ∃ m', m = m' + 1 := ⟨m - 1, by omega⟩
    cases hdir : disk.locateDirectory path with
    | error e => rw [walk_of_locateDirectory_eq_error hdir, walk_of_locateDirectory_eq_error hdir]
    | ok place =>
      let dir : Visited := { place, path }
      rw [walk_of_locateDirectory dir hdir, walk_of_locateDirectory dir hdir]
      refine collect_congr fun ⟨name, node⟩ hentry ↦ ?_
      obtain ⟨-, -, -, hname⟩ := Disk.mem_entriesAt_iff.1 hentry
      have hlt : budget (path.join name) < budget path := budget_join_lt hdir hname
      cases hplace : entryPlace disk (dir :: outer) dir.place (dir.path.join name) name node with
      | error e => rw [walkEntry_of_error hplace, walkEntry_of_error hplace]
      | ok found =>
        rw [walkEntry_of_ok hplace, walkEntry_of_ok hplace]
        exact walkPlace_congr fun _ _ ↦ ih (show budget (path.join name) < n by omega)
          (show budget (path.join name) < m by omega)

theorem walkDepth_pos (settings : ScanSettings) : 0 < walkDepth settings := by
  rw [walkDepth]
  split <;> omega

/-- The number of levels that a walk of all subdirectories may enter is large enough. -/
theorem budget_lt_walkDepth (h : settings.recursive) (path : Path) :
    budget path < walkDepth settings := by
  rw [walkDepth, if_pos h, budget]
  omega

/-- An entry that fails makes the walk of its directory fail. -/
theorem walk_succ_eq_error (hdir : disk.locateDirectory dir.path = .ok dir.place) {depth : Nat}
    {relative : Path} {entry : String × Node} {e : ScanError}
    (hentry : entry ∈ disk.entriesAt dir.place)
    (h : walkEntry disk settings (fun path ↦ walk disk settings depth path (dir :: outer)) dir outer
      relative entry = .error e) :
    ∃ e, walk disk settings (depth + 1) dir.path outer relative = .error e := by
  rw [walk_of_locateDirectory dir hdir]
  exact collect_eq_error hentry h

/-! ### The directories that the walk enters -/

/-- The walk of the models directory `root` enters `dir`, through the directories in `outer`. -/
inductive Entered (disk : Disk) (settings : ScanSettings) (root : Path) :
    (dir : Visited) → (outer : List Visited) → Prop
  /-- The walk starts in the models directory. -/
  | root {place : Place} (hplace : disk.locateDirectory root = .ok place) :
    Entered disk settings root { place, path := root } []
  /-- It goes on in an entry that leads to a directory and is not passed over, if the directory can
  be opened by its path. -/
  | inside {dir : Visited} {outer : List Visited} {name : String} {node : Node} {place : Place}
    (hdir : Entered disk settings root dir outer) (hrecursive : settings.recursive)
    (hentry : (name, node) ∈ disk.entriesAt dir.place)
    (hfollow : entryPlace disk (dir :: outer) dir.place (dir.path.join name) name node = .ok place)
    (hplace : disk.locateDirectory (dir.path.join name) = .ok place)
    (hname : isPassedOver name true = false) :
    Entered disk settings root { place, path := dir.path.join name } (dir :: outer)

namespace Entered

variable {root : Path}

/-- A directory that is entered was opened by its path. -/
theorem locateDirectory (h : Entered disk settings root dir outer) :
    disk.locateDirectory dir.path = .ok dir.place := by
  cases h with
  | root hplace => exact hplace
  | inside _ _ _ _ hplace => exact hplace

/-- Without subdirectories the models directory is the only one. -/
theorem eq_root (h : Entered disk settings root dir outer)
    (hrecursive : settings.recursive = false) :
    ∃ place, disk.locateDirectory root = .ok place ∧ dir = { place, path := root } ∧
      outer = [] := by
  cases h with
  | root hplace => exact ⟨_, hplace, rfl, rfl⟩
  | inside _ htrue => rw [hrecursive] at htrue; cases htrue

/-- Where any directory is entered, the models directory is one. -/
theorem isDirectory (h : Entered disk settings root dir outer) : disk.isDirectory root := by
  induction h with
  | root hplace => exact Disk.isDirectory_iff.2 ⟨_, hplace⟩
  | inside _ _ _ _ _ _ ih => exact ih

/-! ### Errors of the walk -/

/-- A directory that fails makes all fail through which the walk came to it, if the bound on the
levels leaves room for it. -/
theorem walk_root_eq_error (h : Entered disk settings root dir outer)
    (hfails : ∀ depth relative, budget dir.path < depth →
      ∃ e, walk disk settings depth dir.path outer relative = .error e)
    (relative : Path) {depth : Nat} (hdepth : budget root < depth) :
    ∃ e, walk disk settings depth root [] relative = .error e := by
  induction h with
  | root _ => exact hfails depth relative hdepth
  | @inside dir outer name node place hdir _ hentry hfollow hplace hname ih =>
    refine ih fun depth relative hdepth ↦ ?_
    obtain ⟨depth, rfl⟩ : ∃ depth', depth = depth' + 1 := ⟨depth - 1, by omega⟩
    obtain ⟨-, -, -, hisName⟩ := Disk.mem_entriesAt_iff.1 hentry
    have hlt : budget (dir.path.join name) < budget dir.path :=
      budget_join_lt hdir.locateDirectory hisName
    obtain ⟨e, he⟩ := hfails depth (entryRelative relative name)
      (show budget (dir.path.join name) < depth by omega)
    refine walk_succ_eq_error hdir.locateDirectory hentry (e := e) ?_
    obtain ⟨entries, hentries⟩ :=
      Disk.isDirectoryAt_iff.1 (Disk.locateDirectory_eq_ok_iff.1 hplace).2
    rw [walkEntry_of_ok hfollow, walkPlace, hentries]
    simp only [hname]
    exact he

/-- **No entry that cannot be followed goes unnoticed**, whatever its name. -/
theorem walk_eq_error (h : Entered disk settings root dir outer) {name : String} {node : Node}
    (hentry : (name, node) ∈ disk.entriesAt dir.place) {e : ScanError}
    (he : entryPlace disk (dir :: outer) dir.place (dir.path.join name) name node = .error e) :
    ∃ e, walk disk settings (walkDepth settings) root [] "" = .error e := by
  have hfails : ∀ depth relative,
      ∃ e, walk disk settings (depth + 1) dir.path outer relative = .error e :=
    fun depth relative ↦ walk_succ_eq_error h.locateDirectory hentry (walkEntry_of_error he)
  cases hrecursive : settings.recursive with
  | true =>
    refine h.walk_root_eq_error (fun depth relative hdepth ↦ ?_) ""
      (budget_lt_walkDepth hrecursive _)
    obtain ⟨depth, rfl⟩ : ∃ depth', depth = depth' + 1 := ⟨depth - 1, by omega⟩
    exact hfails depth relative
  | false =>
    obtain ⟨place, -, rfl, rfl⟩ := h.eq_root hrecursive
    rw [walkDepth, hrecursive]
    exact hfails 0 ""

end Entered

end SchemaDiagram
