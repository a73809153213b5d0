import Mathlib.Data.List.Nodup
import SchemaDiagram.Proofs.Disk.Node

/-!
# Trees without links

In a tree without links the files are all that there is to be found. They are listed with their
places (`Node.files`), each of them once (`Node.IsPlain.nodup_files`), and a file is listed exactly
where the tree shows it (`Node.IsPlain.mem_files_iff`). In which order the directories have their
entries makes no difference but for the order of the list (`Node.Reordering.perm_files`); the same
stands at every place (`Node.Reordering.bareAt?_eq`).
-/

namespace SchemaDiagram.Node

/-! ### Plain trees -/

/-- A tree of files and directories without links. -/
inductive IsPlain : Node → Prop
  /-- A file has nothing below it. -/
  | file (bytes : List UInt8) : IsPlain (.file bytes)
  /-- A directory has one entry of a name, and its entries are plain again. -/
  | dir {entries : List (String × Node)} (hnodup : (entries.map Prod.fst).Nodup)
    (hname : ∀ entry ∈ entries, IsName entry.1) (hnode : ∀ entry ∈ entries, IsPlain entry.2) :
    IsPlain (.dir entries)

/-- Where each name has one entry, looking a name up finds it. -/
theorem lookup_eq_some_iff_mem {entries : List (String × Node)}
    (h : (entries.map Prod.fst).Nodup) {name : String} {node : Node} :
    entries.lookup name = some node ↔ (name, node) ∈ entries := by
  induction entries with
  | nil => simp
  | cons entry entries ih =>
    obtain ⟨key, first⟩ := entry
    rw [List.map_cons, List.nodup_cons] at h
    rw [lookup_cons_ite, List.mem_cons, Prod.mk.injEq]
    split
    · next hkey =>
      subst hkey
      have hmem : (name, node) ∉ entries := fun hmem ↦ h.1 (List.mem_map.2 ⟨_, hmem, rfl⟩)
      simp [hmem, eq_comm]
    · next hkey => rw [ih h.2]; simp [hkey]

/-! ### The files of a tree -/

/-- A file below an entry, seen from the directory of the entry. -/
def underEntry (name : String) (file : Place × List UInt8) : Place × List UInt8 :=
  (name :: file.1, file.2)

theorem underEntry_injective (name : String) : (underEntry name).Injective := by
  rintro ⟨place, bytes⟩ ⟨other, others⟩ h
  simpa [underEntry] using h

mutual

/-- The files of a tree with their places. -/
def files : Node → List (Place × List UInt8)
  | file bytes => [([], bytes)]
  | link _ => []
  | dir entries => filesOfEntries entries

/-- The files below a directory with their places. -/
def filesOfEntries : List (String × Node) → List (Place × List UInt8)
  | [] => []
  | (name, node) :: rest => node.files.map (underEntry name) ++ filesOfEntries rest

end

/-- The files of a directory are those of its entries. -/
theorem files_dir (entries : List (String × Node)) :
    (dir entries).files = entries.flatMap fun entry ↦ entry.2.files.map (underEntry entry.1) := by
  rw [files]
  induction entries with
  | nil => rfl
  | cons entry entries ih => rw [filesOfEntries, ih, List.flatMap_cons]

theorem exists_eq_cons_of_mem_files_dir {entries : List (String × Node)}
    {file : Place × List UInt8} (h : file ∈ (dir entries).files) :
    ∃ name next, file.1 = name :: next := by
  rw [files_dir] at h
  obtain ⟨entry, -, hfile⟩ := List.mem_flatMap.1 h
  obtain ⟨inner, -, rfl⟩ := List.mem_map.1 hfile
  exact ⟨entry.1, inner.1, rfl⟩

namespace IsPlain

/-- **A file is listed at its place**, and nothing else is. -/
theorem mem_files_iff {tree : Node} (h : tree.IsPlain) {place : Place} {bytes : List UInt8} :
    (place, bytes) ∈ tree.files ↔ tree.at? place = some (.file bytes) := by
  induction h generalizing place with
  | file content =>
    cases place with
    | nil => simp [files, eq_comm]
    | cons name place => simp [files, at?]
  | @dir entries hnodup _ _ ih =>
    cases place with
    | nil =>
      rw [at?_nil]
      constructor
      · intro hmem
        obtain ⟨name, next, hplace⟩ := exists_eq_cons_of_mem_files_dir hmem
        cases hplace
      · intro hdir
        cases hdir
    | cons name place =>
      rw [files_dir, List.mem_flatMap, at?_dir_cons, Option.bind_eq_some_iff]
      constructor
      · rintro ⟨⟨key, node⟩, hentry, hfile⟩
        obtain ⟨⟨inner, content⟩, hinner, hunder⟩ := List.mem_map.1 hfile
        simp only [underEntry, Prod.mk.injEq, List.cons.injEq] at hunder
        obtain ⟨⟨rfl, rfl⟩, rfl⟩ := hunder
        exact ⟨node, (lookup_eq_some_iff_mem hnodup).2 hentry, (ih _ hentry).1 hinner⟩
      · rintro ⟨node, hlookup, hplace⟩
        have hentry := (lookup_eq_some_iff_mem hnodup).1 hlookup
        exact ⟨(name, node), hentry, List.mem_map.2 ⟨_, (ih _ hentry).2 hplace, rfl⟩⟩

/-- No file is listed twice. -/
theorem nodup_files {tree : Node} (h : tree.IsPlain) : tree.files.Nodup := by
  induction h with
  | file content => simp [files]
  | @dir entries hnodup _ _ ih =>
    rw [files_dir, List.nodup_flatMap]
    refine ⟨fun entry hentry ↦ (ih entry hentry).map (underEntry_injective entry.1), ?_⟩
    -- the places of the files below two entries differ in their first name
    refine (List.pairwise_map.1 hnodup).imp fun {entry other} hne file hfile hother ↦ ?_
    obtain ⟨inner, -, rfl⟩ := List.mem_map.1 hfile
    obtain ⟨inner', -, hunder⟩ := List.mem_map.1 hother
    simp only [underEntry, Prod.mk.injEq, List.cons.injEq] at hunder
    exact hne hunder.1.1.symm

/-- The places of a plain tree are made of names. -/
theorem isName_of_at? {tree : Node} (h : tree.IsPlain) {place : Place}
    (hplace : (tree.at? place).isSome) : ∀ name ∈ place, IsName name := by
  induction h generalizing place with
  | file content =>
    cases place with
    | nil => exact nofun
    | cons name place => simp [at?] at hplace
  | @dir entries hnodup hname _ ih =>
    cases place with
    | nil => exact nofun
    | cons name place =>
      rw [at?_dir_cons] at hplace
      cases hlookup : entries.lookup name with
      | none => simp [hlookup] at hplace
      | some node =>
        have hentry := (lookup_eq_some_iff_mem hnodup).1 hlookup
        rw [hlookup] at hplace
        exact List.forall_mem_cons.2 ⟨hname _ hentry, ih _ hentry hplace⟩

end IsPlain

/-! ### The order of entries -/

/-- The same tree, but for the order in which its directories have their entries. -/
inductive Reordering : Node → Node → Prop
  /-- The order may stay. -/
  | refl (tree : Node) : Reordering tree tree
  /-- The entries of a directory change their order. -/
  | entries {entries entries' : List (String × Node)} (h : entries.Perm entries') :
    Reordering (.dir entries) (.dir entries')
  /-- Something changes below one of the entries. -/
  | inside {before after : List (String × Node)} {name : String} {node node' : Node}
    (h : Reordering node node') :
    Reordering (.dir (before ++ (name, node) :: after)) (.dir (before ++ (name, node') :: after))
  /-- One change follows another. -/
  | trans {tree tree' tree'' : Node} (h : Reordering tree tree') (h' : Reordering tree' tree'') :
    Reordering tree tree''

namespace Reordering

/-- A plain tree stays plain. -/
theorem isPlain {tree tree' : Node} (h : Reordering tree tree') (hplain : tree.IsPlain) :
    tree'.IsPlain := by
  induction h with
  | refl tree => exact hplain
  | trans _ _ ih ih' => exact ih' (ih hplain)
  | entries hperm =>
    obtain - | ⟨hnodup, hname, hnode⟩ := hplain
    exact .dir ((hperm.map _).nodup_iff.1 hnodup) (fun entry h ↦ hname entry (hperm.mem_iff.2 h))
      fun entry h ↦ hnode entry (hperm.mem_iff.2 h)
  | @inside before after name node node' _ ih =>
    obtain - | ⟨hnodup, hname, hnode⟩ := hplain
    simp only [List.forall_mem_append, List.forall_mem_cons] at hname hnode
    refine .dir (by simpa using hnodup) ?_ ?_
    · simpa only [List.forall_mem_append, List.forall_mem_cons] using hname
    · simp only [List.forall_mem_append, List.forall_mem_cons]
      exact ⟨hnode.1, ih hnode.2.1, hnode.2.2⟩

/-- **The same files are listed.** -/
theorem perm_files {tree tree' : Node} (h : Reordering tree tree') :
    tree.files.Perm tree'.files := by
  induction h with
  | refl tree => exact .refl _
  | trans _ _ ih ih' => exact ih.trans ih'
  | entries hperm =>
    rw [files_dir, files_dir]
    exact hperm.flatMap_right _
  | inside _ ih =>
    simp only [files_dir, List.flatMap_append, List.flatMap_cons]
    exact ((ih.map _).append_right _).append_left _

/-- **The same stands at every place.** -/
theorem bareAt?_eq {tree tree' : Node} (h : Reordering tree tree') (hplain : tree.IsPlain)
    (place : Place) : tree'.bareAt? place = tree.bareAt? place := by
  induction h generalizing place with
  | refl tree => rfl
  | trans h _ ih ih' => rw [ih' (h.isPlain hplain), ih hplain]
  | @entries entries entries' hperm =>
    obtain - | ⟨hnodup, -, -⟩ := hplain
    cases place with
    | nil => rfl
    | cons name place =>
      have hlookup : entries'.lookup name = entries.lookup name := by
        refine Option.ext fun node ↦ ?_
        rw [lookup_eq_some_iff_mem hnodup,
          lookup_eq_some_iff_mem ((hperm.map Prod.fst).nodup_iff.1 hnodup), hperm.mem_iff]
      rw [bareAt?, at?_dir_cons, hlookup]
      rfl
  | @inside before after name node node' h ih =>
    have hplain' := (Reordering.inside h).isPlain hplain
    obtain - | ⟨hnodup, -, hnode⟩ := hplain
    obtain - | ⟨hnodup', -, -⟩ := hplain'
    cases place with
    | nil => rfl
    | cons first place =>
      rw [bareAt?, bareAt?, at?_dir_cons, at?_dir_cons]
      by_cases hfirst : first = name
      · subst hfirst
        have hmem : ∀ other : Node, (first, other) ∈ before ++ (first, other) :: after :=
          fun other ↦ List.mem_append_right _ List.mem_cons_self
        rw [(lookup_eq_some_iff_mem hnodup').2 (hmem node'),
          (lookup_eq_some_iff_mem hnodup).2 (hmem node)]
        exact ih (hnode _ (hmem node)) place
      · rw [List.lookup_append, List.lookup_append, lookup_cons_ite, lookup_cons_ite,
          if_neg hfirst, if_neg hfirst]

/-- A directory stays one. -/
theorem isDir {tree tree' : Node} (h : Reordering tree tree') : tree'.isDir = tree.isDir := by
  induction h with
  | refl tree => rfl
  | trans _ _ ih ih' => exact ih'.trans ih
  | entries hperm => rfl
  | inside _ _ => rfl

end Reordering

end SchemaDiagram.Node
