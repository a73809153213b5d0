import SchemaDiagram.Proofs.Disk.Follow

/-!
# What changes on a disk

Two operations change a disk. Writing a file changes what stands at one place, to which the path
leads from then on (`Disk.write_spec`). Making directories adds directories where nothing has been,
also if it fails halfway (`Disk.grows_makeDirectories`). So whatever was on the disk before stays on
it: no file, no link and no directory is lost or moved.
-/

namespace SchemaDiagram.Disk

variable {disk middle after : Disk} {path : Path} {written : List Place}

/-- What has been on the disk is still there, and what has come are directories. Only the places in
`written` may show anything else. -/
def Grows (disk after : Disk) (written : List Place) : Prop :=
  ∀ place, place ∉ written → after.bareAt? place = disk.bareAt? place ∨
    disk.bareAt? place = none ∧ after.bareAt? place = some (.dir [])

theorem Grows.refl (disk : Disk) (written : List Place) : disk.Grows disk written :=
  fun _ _ ↦ .inl rfl

theorem Grows.trans (h : disk.Grows middle written) (h' : middle.Grows after written) :
    disk.Grows after written := by
  intro place hplace
  rcases h place hplace with hsame | ⟨hnone, hdir⟩
  · rw [← hsame]
    exact h' place hplace
  · rcases h' place hplace with hsame | ⟨hnone', -⟩
    · exact .inr ⟨hnone, hsame.trans hdir⟩
    · rw [hdir] at hnone'
      cases hnone'

theorem Grows.mono {more : List Place} (h : disk.Grows after written) (hmore : written ⊆ more) :
    disk.Grows after more :=
  fun place hplace ↦ h place fun hmem ↦ hplace (hmore hmem)

/-- A file that is not written keeps its bytes. -/
theorem Grows.at?_eq_file (h : disk.Grows after written) {place : Place}
    (hplace : place ∉ written) {bytes : List UInt8} (hfile : disk.at? place = some (.file bytes)) :
    after.at? place = some (.file bytes) := by
  rw [at?_eq_file_iff] at hfile ⊢
  rcases h place hplace with hsame | ⟨hnone, -⟩
  · exact hsame.trans hfile
  · rw [hfile] at hnone
    cases hnone

theorem Grows.extends (h : disk.Grows after []) : after.Extends disk := by
  intro place node hnode
  rw [outlineAt?_eq_map] at hnode ⊢
  rcases h place List.not_mem_nil with hsame | ⟨hnone, -⟩
  · rw [hsame, hnode]
  · rw [hnone] at hnode
    cases hnode

/-- A path that led to a place before leads there still. -/
theorem locate_of_extends (h : after.Extends disk) {place : Place}
    (hplace : disk.locate path = .ok place) : after.locate path = .ok place := by
  unfold locate resolve at hplace ⊢
  split at hplace
  · rename_i found hfound
    split at hfound
    · cases hfound
    · rename_i hsize
      rw [if_neg hsize, follow_of_extends h hfound (by simp)]
      exact hplace
  · cases hplace
  · cases hplace

/-! ### Writing a file -/

/-- Writing changes what stands at the place that the path leads to, where a file has been before if
anything. -/
theorem bareAt?_write {bytes : List UInt8} (h : disk.write path bytes = .ok after) :
    ∃ d, disk.resolve path = .ok d ∧
      (∀ node, disk.outlineAt? d.place = some node → node = .file []) ∧
      ∀ other, after.bareAt? other =
        if other = d.place then some (.file bytes) else disk.bareAt? other := by
  unfold write at h
  split at h
  · cases h
  split at h
  · rename_i free hfree
    obtain rfl : disk.put free (.file bytes) = after := by simpa using h
    refine ⟨_, hfree, ?_⟩
    unfold resolve at hfree
    split at hfree
    · cases hfree
    obtain ⟨dir, name, rfl, hdir, hnone⟩ := free_of_follow hfree
    obtain ⟨entries, hentries⟩ := isDirectoryAt_iff.1 hdir
    have hname : entries.lookup name = none :=
      (Node.at?_append_singleton hentries name).symm.trans hnone
    exact ⟨by simp [Destination.place, outlineAt?, hnone],
      Node.bareAt?_put_of_free hentries hname rfl⟩
  · rename_i found hfound
    split at h
    · rename_i old hold
      obtain rfl : disk.put found (.file bytes) = after := by simpa using h
      exact ⟨_, hfound, by simp [Destination.place, outlineAt?, hold, Node.outline, eq_comm],
        Node.bareAt?_put_of_at? hold rfl rfl⟩
    · cases h
  · cases h

/-- To a path the disk looks as before, but for the file, which may be new. -/
theorem extends_of_write {bytes : List UInt8} (h : disk.write path bytes = .ok after) :
    after.Extends disk := by
  obtain ⟨d, -, hold, hafter⟩ := bareAt?_write h
  intro place node hnode
  rw [outlineAt?_eq_map, hafter]
  by_cases hplace : place = d.place
  · subst hplace
    rw [if_pos rfl, hold node hnode]
    rfl
  · rw [if_neg hplace, ← outlineAt?_eq_map, hnode]

/-- A file that was written stands where its path leads, and nothing else has changed. -/
theorem write_spec {bytes : List UInt8} (h : disk.write path bytes = .ok after) :
    ∃ place, after.locate path = .ok place ∧ after.at? place = some (.file bytes) ∧
      ∀ other, other ≠ place → after.bareAt? other = disk.bareAt? other := by
  obtain ⟨d, hresolve, -, hafter⟩ := bareAt?_write h
  have hfile : after.bareAt? d.place = some (.file bytes) := by rw [hafter, if_pos rfl]
  have hfree : ∀ free, d = .free free → after.outlineAt? free = some (.file []) := by
    rintro free rfl
    rw [outlineAt?_eq_map, show after.bareAt? free = some (.file bytes) from hfile]
    rfl
  refine ⟨d.place, ?_, at?_eq_file_iff.2 hfile, fun other hne ↦ by rw [hafter, if_neg hne]⟩
  unfold resolve at hresolve
  rw [locate, resolve]
  split at hresolve
  · cases hresolve
  · rename_i hsize
    rw [if_neg hsize, follow_of_extends (extends_of_write h) hresolve hfree]

theorem Grows.write {bytes : List UInt8} {place : Place} (hplace : after.locate path = .ok place)
    (h : disk.write path bytes = .ok after) : disk.Grows after [place] := by
  obtain ⟨place', hplace', -, hother⟩ := write_spec h
  obtain rfl : place' = place := by simpa [hplace'] using hplace
  exact fun other hne ↦ .inl (hother other (by simpa using hne))

/-! ### Where paths lead after a file was written -/

/-- To a path the disks differ at one place only, where a file has been before if anything, and is
afterwards. -/
structure IsWrittenAt (disk after : Disk) (place : Place) : Prop where
  eq_file_before : ∀ node, disk.outlineAt? place = some node → node = .file []
  outlineAt?_after : after.outlineAt? place = some (.file [])
  outlineAt?_eq : ∀ other, other ≠ place → after.outlineAt? other = disk.outlineAt? other

theorem exists_isWrittenAt_of_write {bytes : List UInt8} (h : disk.write path bytes = .ok after) :
    ∃ place, after.locate path = .ok place ∧ after.at? place = some (.file bytes) ∧
      disk.IsWrittenAt after place := by
  obtain ⟨place, hplace, hfile, hother⟩ := write_spec h
  have hafter : after.outlineAt? place = some (.file []) := by
    rw [outlineAt?, hfile]
    rfl
  refine ⟨place, hplace, hfile, fun node hnode ↦ ?_, hafter, fun other hne ↦ ?_⟩
  · exact Option.some.inj ((extends_of_write h place node hnode).symm.trans hafter)
  · rw [outlineAt?_eq_map, outlineAt?_eq_map, hother other hne]

namespace IsWrittenAt

variable {place : Place}

theorem isDirectoryAt_eq (h : disk.IsWrittenAt after place) (other : Place) :
    after.isDirectoryAt other = disk.isDirectoryAt other := by
  rw [Bool.eq_iff_iff, isDirectoryAt_iff_outlineAt?, isDirectoryAt_iff_outlineAt?]
  by_cases hother : other = place
  · subst hother
    rw [h.outlineAt?_after]
    exact iff_of_false nofun fun hdir ↦ nomatch h.eq_file_before _ hdir
  · rw [h.outlineAt?_eq other hother]

/-- A step is the same after the writing, unless it comes to the file. -/
theorem step_eq_or (h : disk.IsWrittenAt after place) (links : Nat) (dir : Place) (name : String)
    (rest : List String) :
    after.step links dir name rest = disk.step links dir name rest ∨
      after.step links dir name rest = .goesOn links place rest := by
  unfold step
  rw [h.isDirectoryAt_eq]
  split
  · split
    · exact .inl rfl
    split
    · exact .inl rfl
    split
    · exact .inl rfl
    by_cases hplace : dir ++ [name] = place
    · have hfile := h.outlineAt?_after
      rw [hplace]
      unfold outlineAt? at hfile
      right
      rcases hnode : after.at? place with _ | _ | _ | _ <;> simp_all [Node.outline]
    · have hsame := h.outlineAt?_eq _ hplace
      unfold outlineAt? at hsame
      left
      rcases hafter : after.at? (dir ++ [name]) with _ | _ | _ | _ <;>
        rcases hdisk : disk.at? (dir ++ [name]) with _ | _ | _ | _ <;>
        simp_all [Node.outline]
  · exact .inl rfl

/-- No path goes on behind a file. -/
theorem eq_of_follow (h : disk.IsWrittenAt after place) {links : Nat} {names : List String}
    {found : Place} (hfollow : after.follow links place names = .ok (.found found)) :
    found = place := by
  cases names with
  | nil => simpa [eq_comm] using hfollow
  | cons name rest =>
    have hdir : after.isDirectoryAt place ≠ true := fun hdir ↦ by
      rw [isDirectoryAt_iff_outlineAt?, h.outlineAt?_after] at hdir
      cases hdir
    rw [follow_cons, step, if_neg hdir] at hfollow
    cases hfollow

/-- A walk that ends after the writing ends at the file or where it has ended before. -/
theorem follow_eq (h : disk.IsWrittenAt after place) {links : Nat} {dir found : Place}
    {names : List String} (hfollow : after.follow links dir names = .ok (.found found)) :
    found = place ∨ disk.follow links dir names = .ok (.found found) := by
  induction links, dir, names using after.follow_induction with
  | nil links dir =>
    rw [follow_nil] at hfollow ⊢
    exact .inr hfollow
  | cons links dir name rest ih =>
    rw [follow_cons] at hfollow ⊢
    rcases h.step_eq_or links dir name rest with hsame | hwritten
    · rw [hsame] at hfollow ih
      cases hstep : disk.step links dir name rest with
      | ends result => rw [hstep] at hfollow; exact .inr hfollow
      | goesOn links' dir' names => rw [hstep] at hfollow; exact ih _ _ _ hstep hfollow
    · rw [hwritten] at hfollow
      exact .inl (h.eq_of_follow hfollow)

/-- **A path leads to the file that was written, or where it has led before.** -/
theorem locate_eq (h : disk.IsWrittenAt after place) {found : Place}
    (hfound : after.locate path = .ok found) : found = place ∨ disk.locate path = .ok found := by
  unfold locate resolve at hfound ⊢
  split at hfound
  · rename_i found' hresolve
    obtain rfl : found' = found := Except.ok.inj hfound
    split at hresolve
    · cases hresolve
    · rename_i hsize
      rw [if_neg hsize]
      exact (h.follow_eq hresolve).imp id fun hfollow ↦ by rw [hfollow]
  · cases hfound
  · cases hfound

end IsWrittenAt

/-! ### Making directories -/

theorem grows_makeDirectory (h : disk.makeDirectory path = .ok after) : disk.Grows after [] := by
  obtain ⟨dir, name, entries, hentries, hname, rfl⟩ : ∃ dir name entries,
      disk.at? dir = some (.dir entries) ∧ entries.lookup name = none ∧
        disk.put (dir ++ [name]) (.dir []) = after := by
    unfold makeDirectory at h
    split at h
    · cases h
    simp only at h
    split at h
    · cases h
    split at h
    · split at h
      · rename_i name _ _ dir _ _ entries hentries
        split at h
        · cases h
        split at h
        · cases h
        split at h
        · cases h
        · rename_i hname
          have hnone := Option.not_isSome_iff_eq_none.1 hname
          exact ⟨dir, name, entries, hentries, hnone, by simpa using h⟩
      · cases h
    · cases h
    · cases h
  have hbare : (Node.dir []).bare = .dir [] := rfl
  have hput := Node.bareAt?_put_of_free hentries hname hbare
  have hnone : disk.bareAt? (dir ++ [name]) = none := by
    rw [bareAt?_eq, at?, Node.at?_append_singleton hentries, hname]
    rfl
  intro other _
  by_cases hother : other = dir ++ [name]
  · subst hother
    exact .inr ⟨hnone, (hput _).trans (if_pos rfl)⟩
  · exact .inl ((hput _).trans (if_neg hother))

/-- Directories that were made on the way stay, and nothing else has changed. -/
theorem grows_makeDirectoriesWithin (budget : Nat) (disk : Disk) (path : Path) :
    disk.Grows (disk.makeDirectoriesWithin budget path).1 [] := by
  induction budget generalizing disk path with
  | zero => exact Grows.refl _ _
  | succ budget ih =>
    rw [makeDirectoriesWithin]
    split
    · rename_i hmade; exact grows_makeDirectory hmade
    · split
      · exact Grows.refl _ _
      · rename_i parent _
        have hparent := ih disk parent
        split
        · rename_i heq; rw [heq] at hparent; exact hparent
        · rename_i heq
          rw [heq] at hparent
          split
          · rename_i hmade; exact hparent.trans (grows_makeDirectory hmade)
          · split <;> exact hparent
    · split <;> exact Grows.refl _ _

theorem grows_makeDirectories (disk : Disk) (path : Path) :
    disk.Grows (disk.makeDirectories path).1 [] :=
  grows_makeDirectoriesWithin _ disk path

end SchemaDiagram.Disk
