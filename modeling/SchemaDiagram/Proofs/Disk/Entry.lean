import SchemaDiagram.Proofs.Disk.Follow
import SchemaDiagram.Proofs.Disk.Path

/-!
# Paths to the entries of a directory

The path of an entry leads to the place of the entry in its directory, unless the disk refuses it
because it or its last name is too long (`Disk.locate_join`). An entry that is a link leads on, to
a place that does not tell where the link stands.
-/

namespace SchemaDiagram.Disk

open Node (IsName)

variable {disk : Disk} {path dir : Path} {place found : Place} {name : String} {node : Node}

/-- What a path leads to is a directory, if it is located as one. -/
theorem locateDirectory_eq_ok_iff : disk.locateDirectory path = .ok place ↔
    disk.locate path = .ok place ∧ disk.isDirectoryAt place := by
  rw [locateDirectory]
  cases disk.locate path with
  | error e => simp [bind, Except.bind]
  | ok found =>
    simp only [bind, Except.bind, isDirectoryAt]
    by_cases hdir : (disk.at? found).any Node.isDir
    · rw [if_pos hdir]
      constructor
      · intro h
        cases h
        exact ⟨rfl, hdir⟩
      · exact And.left
    · rw [if_neg hdir]
      constructor
      · intro h
        cases h
      · rintro ⟨h, hplace⟩
        cases h
        exact absurd hplace hdir

theorem locateDirectory_of_locate {entries : List (String × Node)}
    (h : disk.locate path = .ok place) (hplace : disk.at? place = some (.dir entries)) :
    disk.locateDirectory path = .ok place :=
  locateDirectory_eq_ok_iff.2 ⟨h, isDirectoryAt_iff.2 ⟨entries, hplace⟩⟩

theorem locateDirectory_of_locate_eq_error {e : DiskError} (h : disk.locate path = .error e) :
    disk.locateDirectory path = .error e := by
  rw [locateDirectory, h]
  rfl

theorem isDirectory_iff :
    disk.isDirectory path ↔ ∃ place, disk.locateDirectory path = .ok place := by
  simp only [locateDirectory_eq_ok_iff]
  rw [isDirectory, node?]
  cases disk.locate path with
  | error e => simp [Except.toOption]
  | ok found => simp [Except.toOption, isDirectoryAt]

theorem read_eq_ok_iff {bytes : List UInt8} : disk.read path = .ok bytes ↔
    ∃ place, disk.locate path = .ok place ∧ disk.at? place = some (.file bytes) := by
  unfold read
  cases hplace : disk.locate path with
  | error e => simp [bind, Except.bind]
  | ok place =>
    rcases hnode : disk.at? place with _ | _ | _ | _ <;> simp [bind, Except.bind, hnode]

theorem read_eq_error_of_locate {e : DiskError} (h : disk.locate path = .error e) :
    disk.read path = .error e := by
  rw [read, h]
  rfl

theorem locate_of_utf8ByteSize_ge (h : maxPathBytes ≤ path.utf8ByteSize) :
    disk.locate path = .error .nameTooLong := by
  rw [locate, resolve, if_pos h]

/-- A path that leads to a place is short enough. -/
theorem utf8ByteSize_lt_of_locate (h : disk.locate path = .ok place) :
    path.utf8ByteSize < maxPathBytes := by
  by_contra hlong
  rw [locate_of_utf8ByteSize_ge (Nat.not_lt.1 hlong)] at h
  cases h

theorem follow_steps_of_locate (h : disk.locate path = .ok place) :
    disk.follow maxLinks [] path.steps = .ok (.found place) := by
  have hshort := Nat.not_le.2 (utf8ByteSize_lt_of_locate h)
  rw [locate, resolve, if_neg hshort] at h
  cases hfollow : disk.follow maxLinks [] path.steps with
  | error e => rw [hfollow] at h; cases h
  | ok d =>
    rw [hfollow] at h
    cases d with
    | found place' => cases h; rfl
    | free place' => cases h

/-- A path goes on from the place of its directory, also behind a slash. -/
theorem exists_follow_names_append (h : disk.locate path = .ok place) :
    ∃ links, ∀ more, disk.follow maxLinks [] (path.names ++ more) =
      disk.follow links place more := by
  have hsteps := follow_steps_of_locate h
  rcases path.steps_eq_or with heq | heq
  · rw [heq] at hsteps
    exact exists_follow_append hsteps
  · rw [heq] at hsteps
    obtain ⟨mid, hmid⟩ := exists_follow_of_append hsteps
    obtain ⟨links, hmore⟩ := exists_follow_append hmid
    -- the dot at the end leaves the walk where it is
    obtain rfl : mid = place := by
      rw [hmore, follow_cons, step] at hsteps
      cases hdir : disk.isDirectoryAt mid with
      | true => simpa [hdir] using hsteps
      | false => simp [hdir] at hsteps
    exact ⟨links, hmore⟩

theorem follow_names_of_locate (h : disk.locate path = .ok place) :
    disk.follow maxLinks [] path.names = .ok (.found place) := by
  obtain ⟨links, hmore⟩ := exists_follow_names_append h
  rw [← List.append_nil path.names, hmore, follow_nil]

/-- **The path of an entry leads to its place**, or the disk refuses it for its length. -/
theorem locate_join (hdir : disk.locateDirectory dir = .ok place) (hname : IsName name)
    (hdot : name ≠ ".") (hdots : name ≠ "..") (hnode : disk.at? (place ++ [name]) = some node)
    (hlink : ∀ target, node ≠ .link target) :
    disk.locate (dir.join name) =
      if maxPathBytes ≤ (dir.join name).utf8ByteSize ∨ maxNameBytes < name.utf8ByteSize then
        .error .nameTooLong
      else .ok (place ++ [name]) := by
  obtain ⟨hplace, hdirectory⟩ := locateDirectory_eq_ok_iff.1 hdir
  obtain ⟨links, hmore⟩ := exists_follow_names_append hplace
  by_cases hlong : maxPathBytes ≤ (dir.join name).utf8ByteSize
  · rw [locate_of_utf8ByteSize_ge hlong, if_pos (.inl hlong)]
  · have hstep : disk.step links place name [] =
        if maxNameBytes < name.utf8ByteSize then .ends (.error .nameTooLong)
        else .goesOn links (place ++ [name]) [] := by
      rw [step, if_pos hdirectory, if_neg hdot, if_neg hdots, hnode]
      cases node with
      | file bytes => rfl
      | dir entries => rfl
      | link target => exact absurd rfl (hlink target)
    rw [locate, resolve, if_neg hlong, Path.steps_join hname, hmore, follow_cons, hstep]
    by_cases hsize : maxNameBytes < name.utf8ByteSize
    · rw [if_pos hsize, if_pos (.inr hsize)]
    · rw [if_neg hsize, if_neg (not_or.2 ⟨hlong, hsize⟩)]
      simp only [follow_nil]

/-- The path of an entry leads nowhere else. -/
theorem eq_of_locate_join (hdir : disk.locateDirectory dir = .ok place) (hname : IsName name)
    (hdot : name ≠ ".") (hdots : name ≠ "..") (hnode : disk.at? (place ++ [name]) = some node)
    (hlink : ∀ target, node ≠ .link target) (h : disk.locate (dir.join name) = .ok found) :
    found = place ++ [name] := by
  rw [locate_join hdir hname hdot hdots hnode hlink] at h
  split at h
  · cases h
  · exact (Except.ok.inj h).symm

/-! ### The entries themselves -/

theorem mem_entriesAt_iff {entry : String × Node} : entry ∈ disk.entriesAt place ↔
    ∃ entries, disk.at? place = some (.dir entries) ∧ entry ∈ entries ∧ IsName entry.1 := by
  rw [entriesAt]
  rcases disk.at? place with _ | _ | _ | entries <;> simp

/-- What stands at the place of an entry is one of the entries. -/
theorem mem_entriesAt_of_at? (hname : IsName name) (h : disk.at? (place ++ [name]) = some node) :
    (name, node) ∈ disk.entriesAt place := by
  obtain ⟨entries, hentries⟩ := isDirectoryAt_iff.1 (isDirectoryAt_of_at?_append (by rw [h]; rfl))
  have hlookup : entries.lookup name = some node :=
    (Node.at?_append_singleton hentries name).symm.trans h
  obtain ⟨before, after, rfl, -⟩ := List.lookup_eq_some_iff.1 hlookup
  exact mem_entriesAt_iff.2
    ⟨_, hentries, List.mem_append_right _ List.mem_cons_self, hname⟩

end SchemaDiagram.Disk
