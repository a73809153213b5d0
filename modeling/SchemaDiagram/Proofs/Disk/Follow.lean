import SchemaDiagram.Disk.Basic
import SchemaDiagram.Proofs.Disk.Node

/-!
# Following a path

A path is followed one name at a time (`Disk.follow_cons`). A step depends on no more than whether a
directory stands where the walk is, and on what stands one name further; of a file it does not even
see the bytes. So a disk that has all that another one has leads every path that ends there to the
same place (`Disk.follow_of_extends`).
-/

namespace SchemaDiagram

/-- The place that a path leads to. -/
def Destination.place : Destination → Place
  | found place => place
  | free place => place

namespace Disk

/-- What stands at a place. -/
def bareAt? (disk : Disk) (place : Place) : Option Node := disk.root.bareAt? place

theorem bareAt?_eq (disk : Disk) (place : Place) :
    disk.bareAt? place = (disk.at? place).map Node.bare := rfl

theorem at?_eq_file_iff {disk : Disk} {place : Place} {bytes : List UInt8} :
    disk.at? place = some (.file bytes) ↔ disk.bareAt? place = some (.file bytes) := by
  rw [bareAt?_eq]
  rcases disk.at? place with _ | _ | _ | _ <;> simp [Node.bare]

/-- Whether a directory stands at a place. -/
def isDirectoryAt (disk : Disk) (place : Place) : Bool := (disk.at? place).any Node.isDir

theorem isDirectoryAt_iff {disk : Disk} {place : Place} :
    disk.isDirectoryAt place ↔ ∃ entries, disk.at? place = some (.dir entries) := by
  rw [isDirectoryAt]
  rcases disk.at? place with _ | _ | _ | _ <;> simp [Node.isDir]

/-- A place leads through directories only. -/
theorem isDirectoryAt_of_at?_append {disk : Disk} {place : Place} {name : String}
    (h : (disk.at? (place ++ [name])).isSome) : disk.isDirectoryAt place := by
  rw [at?, Node.at?_append] at h
  rw [isDirectoryAt, at?]
  cases hnode : disk.root.at? place with
  | none => simp [hnode] at h
  | some node => cases node <;> simp [hnode, Node.at?, Node.isDir] at h ⊢

/-- What a path can tell about the node at a place. -/
def outlineAt? (disk : Disk) (place : Place) : Option Node := (disk.at? place).map Node.outline

theorem outlineAt?_eq_map (disk : Disk) (place : Place) :
    disk.outlineAt? place = (disk.bareAt? place).map Node.outline := by
  rw [outlineAt?, bareAt?_eq]
  rcases disk.at? place with _ | _ | _ | _ <;> rfl

theorem isDirectoryAt_iff_outlineAt? {disk : Disk} {place : Place} :
    disk.isDirectoryAt place ↔ disk.outlineAt? place = some (.dir []) := by
  rw [isDirectoryAt, outlineAt?]
  rcases disk.at? place with _ | _ | _ | _ <;> simp [Node.isDir, Node.outline]

theorem outlineAt?_eq_link_iff {disk : Disk} {place : Place} {target : String} :
    disk.outlineAt? place = some (.link target) ↔ disk.at? place = some (.link target) := by
  rw [outlineAt?, Option.map_eq_some_iff]
  simp only [Node.outline_eq_link_iff, exists_eq_right]

/-! ### One step -/

/-- How a walk along a path goes on behind a name. -/
inductive Step where
  /-- The walk ends. -/
  | ends (result : Except DiskError Destination)
  /-- The walk goes on from a place along some names. -/
  | goesOn (links : Nat) (place : Place) (names : List String)

/-- The step of a walk that is at `place`, along the name that comes next. -/
def step (disk : Disk) (links : Nat) (place : Place) (name : String) (rest : List String) : Step :=
  if disk.isDirectoryAt place then
    if name = "." then .goesOn links place rest
    else if name = ".." then .goesOn links place.dropLast rest
    else if maxNameBytes < name.utf8ByteSize then .ends (.error .nameTooLong)
    else
      match disk.at? (place ++ [name]) with
      | none => .ends (if rest.isEmpty then .ok (.free (place ++ [name])) else .error .notFound)
      | some (.link target) =>
        match links with
        | 0 => .ends (.error .tooManyLinks)
        | links + 1 =>
          .goesOn links (if Path.isAbsolute target then [] else place) (Path.steps target ++ rest)
      | some _ => .goesOn links (place ++ [name]) rest
  else .ends (.error .notADirectory)

@[simp] theorem follow_nil (disk : Disk) (links : Nat) (place : Place) :
    disk.follow links place [] = .ok (.found place) := by
  rw [follow]

/-- A walk along a path takes one step after the other. -/
theorem follow_cons (disk : Disk) (links : Nat) (place : Place) (name : String)
    (rest : List String) :
    disk.follow links place (name :: rest) =
      match disk.step links place name rest with
      | .ends result => result
      | .goesOn links place names => disk.follow links place names := by
  rw [follow, step]
  cases hdir : disk.at? place with
  | none => simp [isDirectoryAt, hdir]
  | some node =>
    cases node with
    | file bytes => simp [isDirectoryAt, hdir, Node.isDir]
    | link target => simp [isDirectoryAt, hdir, Node.isDir]
    | dir entries =>
      rw [if_pos (isDirectoryAt_iff.2 ⟨entries, hdir⟩),
        show disk.at? (place ++ [name]) = entries.lookup name from
          Node.at?_append_singleton hdir name]
      simp only
      split
      · rfl
      split
      · rfl
      split
      · rfl
      cases hnode : entries.lookup name with
      | none => rfl
      | some node =>
        cases node with
        | file bytes => rfl
        | dir entries => rfl
        | link target => cases links <;> rfl

/-- A path leads to the place where its walk ends. -/
theorem locate_of_follow {disk : Disk} {path : Path} {place : Place}
    (hsize : path.utf8ByteSize < maxPathBytes)
    (h : disk.follow maxLinks [] path.steps = .ok (.found place)) :
    disk.locate path = .ok place := by
  rw [locate, resolve, if_neg (Nat.not_le.2 hsize), h]

/-- Where a step from `place` along a name goes on, with the links that are left and the names that
come before the rest of the path. -/
inductive GoesOn (disk : Disk) (links : Nat) (place : Place) :
    (name : String) → (links' : Nat) → (place' : Place) → (front : List String) → Prop
  /-- A dot leaves the walk where it is. -/
  | dot : GoesOn disk links place "." links place []
  /-- Two dots lead up. -/
  | dots : GoesOn disk links place ".." links place.dropLast []
  /-- A link leads along its target. -/
  | link {name target : String} {links' : Nat} (hlinks : links = links' + 1) (hdot : name ≠ ".")
    (hdots : name ≠ "..") (hsize : name.utf8ByteSize ≤ maxNameBytes)
    (htarget : disk.at? (place ++ [name]) = some (.link target)) :
    GoesOn disk links place name links' (if Path.isAbsolute target then [] else place)
      (Path.steps target)
  /-- Anything else is gone into. -/
  | inside {name : String} {node : Node} (hdot : name ≠ ".") (hdots : name ≠ "..")
    (hsize : name.utf8ByteSize ≤ maxNameBytes) (hnode : disk.at? (place ++ [name]) = some node)
    (hlink : ∀ target, node ≠ .link target) :
    GoesOn disk links place name links (place ++ [name]) []

/-- **A step goes on from a directory**, along some names of its own and then along the rest of the
path, whatever that is. -/
theorem step_eq_goesOn_iff {disk : Disk} {links links' : Nat} {place place' : Place} {name : String}
    {rest names : List String} : disk.step links place name rest = .goesOn links' place' names ↔
      disk.isDirectoryAt place ∧
        ∃ front, disk.GoesOn links place name links' place' front ∧ names = front ++ rest := by
  constructor
  · intro h
    unfold step at h
    split at h
    · next hdir =>
      refine ⟨hdir, ?_⟩
      split at h
      · next hdot => subst hdot; cases h; exact ⟨[], .dot, rfl⟩
      next hdot =>
      split at h
      · next hdots => subst hdots; cases h; exact ⟨[], .dots, rfl⟩
      next hdots =>
      split at h
      · cases h
      next hsize =>
      have hsize := Nat.not_lt.1 hsize
      split at h
      · cases h
      · next target htarget =>
        split at h
        · cases h
        · cases h
          exact ⟨_, .link rfl hdot hdots hsize htarget, rfl⟩
      · next node hlink hnode =>
        cases h
        exact ⟨[], .inside hdot hdots hsize hnode hlink, rfl⟩
    · cases h
  · rintro ⟨hdir, front, hstep, rfl⟩
    rw [step, if_pos hdir]
    cases hstep with
    | dot => rfl
    | dots => rfl
    | link hlinks hdot hdots hsize htarget =>
      subst hlinks
      rw [if_neg hdot, if_neg hdots, if_neg (Nat.not_lt.2 hsize), htarget]
    | @inside _ node hdot hdots hsize hnode hlink =>
      rw [if_neg hdot, if_neg hdots, if_neg (Nat.not_lt.2 hsize), hnode]
      cases node with
      | file bytes => rfl
      | dir entries => rfl
      | link target => exact absurd rfl (hlink target)

/-- Behind a step fewer links may be followed, or fewer names are left. -/
theorem lt_of_step {disk : Disk} {links links' : Nat} {place place' : Place} {name : String}
    {rest names : List String} (h : disk.step links place name rest = .goesOn links' place' names) :
    links' < links ∨ links' = links ∧ names.length < (name :: rest).length := by
  obtain ⟨-, front, hgoes, rfl⟩ := step_eq_goesOn_iff.1 h
  cases hgoes with
  | dot => exact .inr ⟨rfl, Nat.lt_succ_self _⟩
  | dots => exact .inr ⟨rfl, Nat.lt_succ_self _⟩
  | link hlinks => exact .inl (hlinks ▸ Nat.lt_succ_self _)
  | inside => exact .inr ⟨rfl, Nat.lt_succ_self _⟩

/-- What holds at the end of a path, and before a step if it holds behind it, holds of all walks. -/
theorem follow_induction (disk : Disk) {motive : Nat → Place → List String → Prop}
    (nil : ∀ links place, motive links place [])
    (cons : ∀ links place name rest,
      (∀ links' place' names, disk.step links place name rest = .goesOn links' place' names →
        motive links' place' names) → motive links place (name :: rest))
    (links : Nat) (place : Place) (names : List String) : motive links place names := by
  match names with
  | [] => exact nil links place
  | name :: rest =>
    exact cons links place name rest fun links' place' names h ↦
      have := lt_of_step h
      follow_induction disk nil cons links' place' names
termination_by (links, names.length)
decreasing_by
  rcases this with hlinks | ⟨rfl, hnames⟩
  · exact Prod.Lex.left _ _ hlinks
  · exact Prod.Lex.right _ hnames

/-- The walk ends well behind a step only if the path goes on with one more name, which is free. -/
theorem of_step_eq_ends_ok {disk : Disk} {links : Nat} {place : Place} {name : String}
    {rest : List String} {d : Destination} (h : disk.step links place name rest = .ends (.ok d)) :
    d = .free (place ++ [name]) ∧ rest = [] ∧ disk.isDirectoryAt place ∧
      disk.at? (place ++ [name]) = none ∧ name ≠ "." ∧ name ≠ ".." ∧
      name.utf8ByteSize ≤ maxNameBytes := by
  unfold step at h
  split at h
  · rename_i hdir
    split at h
    · cases h
    split at h
    · cases h
    split at h
    · cases h
    rename_i hdot hdots hsize
    split at h
    · rename_i hnone
      cases rest with
      | nil => cases h; exact ⟨rfl, rfl, hdir, hnone, hdot, hdots, Nat.le_of_not_lt hsize⟩
      | cons next rest => cases h
    · split at h <;> cases h
    · cases h
  · cases h

/-- A step goes on in the same way whatever the rest of the path is. -/
theorem exists_of_step {disk : Disk} {links links' : Nat} {place place' : Place} {name : String}
    {rest names : List String} (h : disk.step links place name rest = .goesOn links' place' names) :
    ∃ front, names = front ++ rest ∧
      ∀ other, disk.step links place name other = .goesOn links' place' (front ++ other) := by
  obtain ⟨hdir, front, hgoes, rfl⟩ := step_eq_goesOn_iff.1 h
  exact ⟨front, rfl, fun other ↦ step_eq_goesOn_iff.2 ⟨hdir, front, hgoes, rfl⟩⟩

/-- A path goes on from where its front part leads. -/
theorem exists_follow_append {disk : Disk} {links : Nat} {place found : Place}
    {names : List String} (h : disk.follow links place names = .ok (.found found)) :
    ∃ links', ∀ more, disk.follow links place (names ++ more) = disk.follow links' found more := by
  induction links, place, names using disk.follow_induction with
  | nil links place =>
    obtain rfl : place = found := by simpa using h
    exact ⟨links, fun more ↦ rfl⟩
  | cons links place name rest ih =>
    rw [follow_cons] at h
    cases hstep : disk.step links place name rest with
    | ends result =>
      rw [hstep] at h
      obtain rfl : result = .ok (.found found) := h
      cases (of_step_eq_ends_ok hstep).1
    | goesOn links' place' names =>
      rw [hstep] at h
      obtain ⟨front, rfl, hother⟩ := exists_of_step hstep
      obtain ⟨links'', hmore⟩ := ih _ _ _ hstep h
      refine ⟨links'', fun more ↦ ?_⟩
      rw [List.cons_append, follow_cons, hother, ← hmore, List.append_assoc]

/-- Where a path leads to a place, its front part leads to one, too. -/
theorem exists_follow_of_append {disk : Disk} {links : Nat} {place found : Place}
    {names more : List String} (h : disk.follow links place (names ++ more) = .ok (.found found)) :
    ∃ mid, disk.follow links place names = .ok (.found mid) := by
  induction links, place, names using disk.follow_induction with
  | nil links place => exact ⟨place, follow_nil disk links place⟩
  | cons links place name rest ih =>
    rw [List.cons_append, follow_cons] at h
    cases hstep : disk.step links place name (rest ++ more) with
    | ends result =>
      rw [hstep] at h
      obtain rfl : result = .ok (.found found) := h
      cases (of_step_eq_ends_ok hstep).1
    | goesOn links' place' names =>
      rw [hstep] at h
      obtain ⟨front, rfl, hother⟩ := exists_of_step hstep
      rw [follow_cons, hother]
      exact ih _ _ _ (hother rest) (by rw [List.append_assoc]; exact h)

/-- A place that is still free lies in an existing directory. -/
theorem free_of_follow {disk : Disk} {links : Nat} {place free : Place} {names : List String}
    (h : disk.follow links place names = .ok (.free free)) :
    ∃ dir name, free = dir ++ [name] ∧ disk.isDirectoryAt dir ∧ disk.at? free = none := by
  induction links, place, names using disk.follow_induction with
  | nil => simp at h
  | cons links place name rest ih =>
    rw [follow_cons] at h
    cases hstep : disk.step links place name rest with
    | goesOn links' place' names => rw [hstep] at h; exact ih _ _ _ hstep h
    | ends result =>
      rw [hstep] at h
      obtain rfl : result = .ok (.free free) := h
      obtain ⟨hfree, -, hdir, hnone, -⟩ := of_step_eq_ends_ok hstep
      obtain rfl : free = place ++ [name] := by simpa using hfree
      exact ⟨place, name, rfl, hdir, hnone⟩

/-! ### A disk that has more on it -/

/-- What stands on the other disk stands on this one too; a file may have other bytes. -/
def Extends (disk other : Disk) : Prop :=
  ∀ place node, other.outlineAt? place = some node → disk.outlineAt? place = some node

theorem Extends.isDirectoryAt {disk other : Disk} (h : disk.Extends other) {place : Place}
    (hdir : other.isDirectoryAt place) : disk.isDirectoryAt place :=
  isDirectoryAt_iff_outlineAt?.2 (h _ _ (isDirectoryAt_iff_outlineAt?.1 hdir))

theorem GoesOn.of_extends {disk other : Disk} (hext : disk.Extends other) {links links' : Nat}
    {place place' : Place} {name : String} {front : List String}
    (h : other.GoesOn links place name links' place' front) :
    disk.GoesOn links place name links' place' front := by
  cases h with
  | dot => exact .dot
  | dots => exact .dots
  | link hlinks hdot hdots hsize htarget =>
    have houtline := hext _ _ (outlineAt?_eq_link_iff.2 htarget)
    exact .link hlinks hdot hdots hsize (outlineAt?_eq_link_iff.1 houtline)
  | @inside _ node hdot hdots hsize hnode hlink =>
    have houtline := hext _ node.outline (by rw [outlineAt?, hnode]; rfl)
    obtain ⟨node', hnode', heq⟩ := Option.map_eq_some_iff.1 houtline
    refine .inside hdot hdots hsize hnode' fun target htarget ↦ hlink target ?_
    rw [← Node.outline_eq_link_iff, ← heq, Node.outline_eq_link_iff, htarget]

theorem step_of_extends {disk other : Disk} (hext : disk.Extends other) {links links' : Nat}
    {place place' : Place} {name : String} {rest names : List String}
    (h : other.step links place name rest = .goesOn links' place' names) :
    disk.step links place name rest = .goesOn links' place' names := by
  obtain ⟨hdir, front, hgoes, hnames⟩ := step_eq_goesOn_iff.1 h
  exact step_eq_goesOn_iff.2 ⟨hext.isDirectoryAt hdir, front, hgoes.of_extends hext, hnames⟩

/-- A path that leads to a place leads there on a disk that has more on it, and so does a path to a
free place where a file stands by then. -/
theorem follow_of_extends {disk other : Disk} (hext : disk.Extends other) {links : Nat}
    {place : Place} {names : List String} {d : Destination}
    (h : other.follow links place names = .ok d)
    (hfree : ∀ free, d = .free free → disk.outlineAt? free = some (.file [])) :
    disk.follow links place names = .ok (.found d.place) := by
  induction links, place, names using other.follow_induction with
  | nil =>
    obtain rfl : d = .found _ := by simpa [eq_comm] using h
    exact follow_nil disk _ _
  | cons links place name rest ih =>
    rw [follow_cons] at h ⊢
    cases hstep : other.step links place name rest with
    | goesOn links' place' names =>
      rw [hstep] at h
      rw [step_of_extends hext hstep]
      exact ih _ _ _ hstep h
    | ends result =>
      rw [hstep] at h
      obtain rfl : result = .ok d := h
      obtain ⟨rfl, rfl, hdir, -, hdot, hdots, hsize⟩ := of_step_eq_ends_ok hstep
      -- on the other disk the last name is free; here a file has taken the place
      have hfile := hfree _ rfl
      have hnext : disk.step links place name [] = .goesOn links (place ++ [name]) [] := by
        rw [step, if_pos (hext.isDirectoryAt hdir), if_neg hdot, if_neg hdots,
          if_neg (Nat.not_lt.2 hsize)]
        unfold outlineAt? at hfile
        rcases hnode : disk.at? (place ++ [name]) with _ | _ | _ | _ <;> simp_all [Node.outline]
      rw [hnext]
      exact follow_nil disk _ _

end Disk

end SchemaDiagram
