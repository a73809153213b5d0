import SchemaDiagram.Proofs.Disk.Entry

/-!
# Removing entries

Entries are removed by their places, each with all that lies below it. Every other place shows what
it has shown before, less what is removed further down (`Disk.at?_without`). A path leads to where
it led before if none of the places that it comes by is removed (`Disk.follow_without`); by links it
may come by places that its text does not tell of (`Disk.lookedAt`). On the way to an entry that is
no link these are the places on the way to its directory and its own (`Disk.onTheWay_join`).
-/

namespace SchemaDiagram

namespace Node

mutual

/-- The tree at a place without the entries at the removed places. -/
def without (removed : Place → Bool) (place : Place) : Node → Node
  | file bytes => file bytes
  | link target => link target
  | dir entries => dir (withoutEntries removed place entries)

/-- The entries of the directory at a place, less the removed ones. -/
def withoutEntries (removed : Place → Bool) (place : Place) :
    List (String × Node) → List (String × Node)
  | [] => []
  | (name, node) :: rest =>
    if removed (place ++ [name]) then withoutEntries removed place rest
    else (name, without removed (place ++ [name]) node) :: withoutEntries removed place rest

end

variable (removed : Place → Bool) (place : Place)

theorem isDir_without (node : Node) : (node.without removed place).isDir = node.isDir := by
  cases node <;> simp [without, isDir]

theorem withoutEntries_eq (entries : List (String × Node)) :
    withoutEntries removed place entries =
      (entries.filter fun entry ↦ !removed (place ++ [entry.1])).map fun entry ↦
        (entry.1, entry.2.without removed (place ++ [entry.1])) := by
  induction entries with
  | nil => simp [withoutEntries]
  | cons entry entries ih =>
    obtain ⟨name, node⟩ := entry
    rw [withoutEntries, ih]
    cases h : removed (place ++ [name]) <;> simp [h]

theorem lookup_withoutEntries (name : String) (entries : List (String × Node)) :
    (withoutEntries removed place entries).lookup name =
      if removed (place ++ [name]) then none
      else (entries.lookup name).map (without removed (place ++ [name])) := by
  induction entries with
  | nil => simp [withoutEntries]
  | cons entry entries ih =>
    obtain ⟨other, node⟩ := entry
    rw [withoutEntries, lookup_cons_ite]
    by_cases hname : name = other
    · subst hname
      cases h : removed (place ++ [name]) <;> simp [h, ih]
    · cases h : removed (place ++ [other]) <;> simp [lookup_cons_ite, hname, ih]

end Node

/-- Neither the place nor a directory on the way to it is removed. -/
def Place.IsKept (removed : Place → Bool) (place : Place) : Prop :=
  ∀ p, p ≠ [] → p <+: place → removed p = false

namespace Place.IsKept

variable {removed : Place → Bool} {place : Place} {name : String}

theorem nil : IsKept removed [] := by
  intro p hp hle
  exact absurd (List.prefix_nil.1 hle) hp

theorem concat_iff : IsKept removed (place ++ [name]) ↔
    IsKept removed place ∧ removed (place ++ [name]) = false := by
  constructor
  · intro h
    exact ⟨fun p hp hle ↦ h p hp (hle.trans (List.prefix_append _ _)),
      h _ (by simp) (List.prefix_refl _)⟩
  · rintro ⟨hplace, hname⟩ p hp hle
    rcases List.prefix_concat_iff.1 hle with rfl | hle
    · exact hname
    · exact hplace p hp hle

theorem dropLast (h : IsKept removed place) : IsKept removed place.dropLast :=
  fun p hp hle ↦ h p hp (hle.trans (List.dropLast_prefix place))

end Place.IsKept

namespace Disk

variable {disk : Disk} {removed : Place → Bool} {place : Place}

/-- The disk without the entries at the removed places. -/
def without (disk : Disk) (removed : Place → Bool) : Disk :=
  { root := disk.root.without removed [] }

/-- A place that is kept shows what it has shown before, less what is removed below it. -/
theorem at?_without (h : place.IsKept removed) :
    (disk.without removed).at? place = (disk.at? place).map (Node.without removed place) := by
  induction place using List.reverseRecOn with
  | nil => simp [at?, without]
  | append_singleton place name ih =>
    obtain ⟨hplace, hname⟩ := Place.IsKept.concat_iff.1 h
    have ih := ih hplace
    unfold at? at ih ⊢
    rw [Node.at?_append, Node.at?_append, ih]
    rcases disk.root.at? place with _ | _ | _ | entries
    · rfl
    · rfl
    · rfl
    · simp [Node.without, Node.lookup_withoutEntries, hname]

theorem isDirectoryAt_without (h : place.IsKept removed) :
    (disk.without removed).isDirectoryAt place = disk.isDirectoryAt place := by
  rw [isDirectoryAt, isDirectoryAt, at?_without h]
  cases disk.at? place <;> simp [Node.isDir_without]

/-! ### Paths -/

/-- The places that a walk along a path looks at, after links were followed. -/
def lookedAt (disk : Disk) (links : Nat) (place : Place) : List String → List Place
  | [] => []
  | name :: rest =>
    (if name = "." ∨ name = ".." then [] else [place ++ [name]]) ++
      match _h : disk.step links place name rest with
      | .ends _ => []
      | .goesOn links' place' names => disk.lookedAt links' place' names
termination_by names => (links, names.length)
decreasing_by
  rcases lt_of_step _h with hlinks | ⟨rfl, hnames⟩
  · exact Prod.Lex.left _ _ hlinks
  · exact Prod.Lex.right _ hnames

theorem lookedAt_cons (disk : Disk) (links : Nat) (place : Place) (name : String)
    (rest : List String) :
    disk.lookedAt links place (name :: rest) =
      (if name = "." ∨ name = ".." then [] else [place ++ [name]]) ++
        match disk.step links place name rest with
        | .ends _ => []
        | .goesOn links place names => disk.lookedAt links place names := by
  rw [lookedAt]
  congr 1
  split <;> rename_i hstep <;> rw [hstep]

theorem mem_lookedAt_self {links : Nat} {name : String} {rest : List String} (hdot : name ≠ ".")
    (hdots : name ≠ "..") : place ++ [name] ∈ disk.lookedAt links place (name :: rest) := by
  rw [lookedAt_cons, if_neg (by simp [hdot, hdots])]
  exact List.mem_append_left _ (List.mem_singleton_self _)

/-- A step is the same where its place and the next one are kept. -/
theorem step_without {links : Nat} {name : String} {rest : List String}
    (hplace : place.IsKept removed)
    (hname : name ≠ "." → name ≠ ".." → removed (place ++ [name]) = false) :
    (disk.without removed).step links place name rest = disk.step links place name rest := by
  unfold step
  rw [isDirectoryAt_without hplace]
  split
  · split
    · rfl
    rename_i hdot
    split
    · rfl
    rename_i hdots
    split
    · rfl
    rw [at?_without (Place.IsKept.concat_iff.2 ⟨hplace, hname hdot hdots⟩)]
    rcases disk.at? (place ++ [name]) with _ | _ | _ | _ <;> rfl
  · rfl

/-- The place behind a step is kept if the one before and the next one are. -/
theorem isKept_of_step {links links' : Nat} {place' : Place} {name : String}
    {rest names : List String} (hplace : place.IsKept removed)
    (hname : name ≠ "." → name ≠ ".." → removed (place ++ [name]) = false)
    (h : disk.step links place name rest = .goesOn links' place' names) :
    place'.IsKept removed := by
  obtain ⟨-, front, hgoes, -⟩ := step_eq_goesOn_iff.1 h
  cases hgoes with
  | dot => exact hplace
  | dots => exact hplace.dropLast
  | link =>
    split
    · exact .nil
    · exact hplace
  | inside hdot hdots => exact Place.IsKept.concat_iff.2 ⟨hplace, hname hdot hdots⟩

/-- **A path that comes by no removed place leads to where it led before**, to a place that is
kept. -/
theorem follow_without {links : Nat} {names : List String} (hplace : place.IsKept removed)
    (h : ∀ p ∈ disk.lookedAt links place names, removed p = false) :
    (disk.without removed).follow links place names = disk.follow links place names ∧
      ∀ found, disk.follow links place names = .ok (.found found) → found.IsKept removed := by
  induction links, place, names using disk.follow_induction with
  | nil links place =>
    refine ⟨by rw [follow_nil, follow_nil], fun found hfound ↦ ?_⟩
    obtain rfl : place = found := by simpa using hfound
    exact hplace
  | cons links place name rest ih =>
    have hname : name ≠ "." → name ≠ ".." → removed (place ++ [name]) = false :=
      fun hdot hdots ↦ h _ (mem_lookedAt_self hdot hdots)
    rw [follow_cons, follow_cons, step_without hplace hname]
    cases hstep : disk.step links place name rest with
    | ends result =>
      refine ⟨rfl, fun found hfound ↦ ?_⟩
      obtain rfl : result = .ok (.found found) := hfound
      cases (of_step_eq_ends_ok hstep).1
    | goesOn links' place' names =>
      refine ih _ _ _ hstep (isKept_of_step hplace hname hstep) fun p hp ↦ h p ?_
      rw [lookedAt_cons, hstep]
      exact List.mem_append_right _ hp

/-- The places that are looked at on the way along a path. -/
def onTheWay (disk : Disk) (path : Path) : List Place := disk.lookedAt maxLinks [] path.steps

theorem locate_without {path : Path} (h : ∀ p ∈ disk.onTheWay path, removed p = false) :
    (disk.without removed).locate path = disk.locate path := by
  rw [locate, locate, resolve, resolve, (follow_without .nil h).1]

theorem isKept_of_locate {path : Path} (h : ∀ p ∈ disk.onTheWay path, removed p = false)
    (hplace : disk.locate path = .ok place) : place.IsKept removed := by
  unfold locate at hplace
  split at hplace
  · rename_i found hfound
    obtain rfl : found = place := by simpa using hplace
    unfold resolve at hfound
    split at hfound
    · cases hfound
    · exact (follow_without .nil h).2 _ hfound
  · cases hplace
  · cases hplace

theorem read_without {path : Path} (h : ∀ p ∈ disk.onTheWay path, removed p = false) :
    (disk.without removed).read path = disk.read path := by
  rw [read, read, locate_without h]
  cases hplace : disk.locate path with
  | error e => rfl
  | ok place =>
    simp only [bind, Except.bind, at?_without (isKept_of_locate h hplace)]
    rcases disk.at? place with _ | _ | _ | _ <;> simp [Node.without]

theorem locateDirectory_without {path : Path} (h : ∀ p ∈ disk.onTheWay path, removed p = false) :
    (disk.without removed).locateDirectory path = disk.locateDirectory path := by
  rw [locateDirectory, locateDirectory, locate_without h]
  cases hplace : disk.locate path with
  | error e => rfl
  | ok place =>
    have hdir : (disk.without removed).isDirectoryAt place = disk.isDirectoryAt place :=
      isDirectoryAt_without (isKept_of_locate h hplace)
    rw [isDirectoryAt, isDirectoryAt] at hdir
    simp only [bind, Except.bind, hdir]

/-! ### The way to an entry -/

/-- Behind a front part, a walk along a path looks at what the rest of the path leads by. -/
theorem exists_lookedAt_append {links : Nat} {found : Place} {names : List String}
    (h : disk.follow links place names = .ok (.found found)) :
    ∃ links', ∀ more, disk.lookedAt links place (names ++ more) =
      disk.lookedAt links place names ++ disk.lookedAt links' found more := by
  induction links, place, names using disk.follow_induction with
  | nil links place =>
    obtain rfl : place = found := by simpa using h
    exact ⟨links, fun more ↦ by simp [lookedAt]⟩
  | cons links place name rest ih =>
    rw [follow_cons] at h
    cases hstep : disk.step links place name rest with
    | ends result =>
      rw [hstep] at h
      obtain rfl : result = .ok (.found found) := h
      cases (of_step_eq_ends_ok hstep).1
    | goesOn links' place' names =>
      rw [hstep] at h
      obtain ⟨front, rfl, hother⟩ := exists_of_step hstep
      obtain ⟨links'', hmore⟩ := ih _ _ _ hstep h
      refine ⟨links'', fun more ↦ ?_⟩
      have hrest := hmore more
      rw [List.append_assoc] at hrest
      rw [List.cons_append, lookedAt_cons, lookedAt_cons, hother, hother, List.append_assoc]
      exact congrArg _ hrest

/-- Of a directory's entries, a walk to one that is no link looks at that one alone. -/
theorem eq_of_mem_lookedAt_singleton {links : Nat} {name : String} {p : Place}
    (hlink : ∀ target, disk.at? (place ++ [name]) ≠ some (.link target))
    (h : p ∈ disk.lookedAt links place [name]) : p = place ++ [name] := by
  rw [lookedAt_cons, List.mem_append] at h
  rcases h with h | h
  · split at h
    · cases h
    · exact List.mem_singleton.1 h
  · split at h
    · cases h
    · next links' place' names hstep =>
      obtain ⟨-, front, hgoes, rfl⟩ := step_eq_goesOn_iff.1 hstep
      -- only a link has something to look at behind it
      cases hgoes with
      | dot => simp [lookedAt] at h
      | dots => simp [lookedAt] at h
      | link _ _ _ _ htarget => exact absurd htarget (hlink _)
      | inside => simp [lookedAt] at h

/-- **On the way to an entry** that is no link there is nothing new but the entry. -/
theorem onTheWay_join {dir : Path} {name : String} {p : Place} (hdir : disk.locate dir = .ok place)
    (hname : Node.IsName name)
    (hlink : ∀ target, disk.at? (place ++ [name]) ≠ some (.link target))
    (h : p ∈ disk.onTheWay (dir.join name)) : p ∈ disk.onTheWay dir ∨ p = place ++ [name] := by
  obtain ⟨links, hmore⟩ := exists_lookedAt_append (follow_names_of_locate hdir)
  rw [onTheWay, Path.steps_join hname, hmore, List.mem_append] at h
  refine h.imp (fun h ↦ ?_) (eq_of_mem_lookedAt_singleton hlink)
  rcases dir.steps_eq_or with hsteps | hsteps
  · rwa [onTheWay, hsteps]
  · rw [onTheWay, hsteps, hmore]
    exact List.mem_append_left _ h

end Disk

end SchemaDiagram
