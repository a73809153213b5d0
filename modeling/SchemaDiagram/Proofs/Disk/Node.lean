import Mathlib.Data.List.Induction
import SchemaDiagram.Disk.Node

/-!
# What stands at a place

A node that is put at a place shows up there, and every place that does not lie at or below it shows
what it has shown before (`Node.at?_put_append`, `Node.bareAt?_put_of_not_prefix`). A directory on
the way to the place gets another entry; so what a place shows is taken without the entries of a
directory (`Node.bare`), which are shown by the places below it.
-/

namespace SchemaDiagram.Node

/-! ### Entries -/

theorem lookup_cons_ite (name key : String) (node : Node) (entries : List (String × Node)) :
    ((key, node) :: entries).lookup name =
      if name = key then some node else entries.lookup name := by
  by_cases h : name = key
  · rw [h, List.lookup_cons_self, if_pos rfl]
  · rw [List.lookup_cons, beq_false_of_ne h, if_neg h]

theorem lookup_setEntry (name other : String) (node : Node) (entries : List (String × Node)) :
    (setEntry name node entries).lookup other =
      if other = name then some node else entries.lookup other := by
  induction entries with
  | nil => rw [setEntry, lookup_cons_ite]
  | cons entry entries ih =>
    obtain ⟨key, old⟩ := entry
    rw [setEntry, lookup_cons_ite]
    by_cases hkey : key = name
    · rw [if_pos hkey, lookup_cons_ite, hkey]
      split <;> rfl
    · rw [if_neg hkey, lookup_cons_ite, ih]
      by_cases hother : other = key
      · rw [if_pos hother, if_neg (hother ▸ hkey), if_pos hother]
      · rw [if_neg hother, if_neg hother]

/-! ### Places -/

@[simp] theorem at?_nil (tree : Node) : tree.at? [] = some tree := by
  cases tree <;> rfl

@[simp] theorem at?_dir_cons (entries : List (String × Node)) (name : String) (place : Place) :
    (dir entries).at? (name :: place) = (entries.lookup name).bind fun node ↦ node.at? place :=
  rfl

/-- What lies behind a place is found in the node at the place. -/
theorem at?_append (tree : Node) (place rest : Place) :
    tree.at? (place ++ rest) = (tree.at? place).bind fun node ↦ node.at? rest := by
  induction place generalizing tree with
  | nil => rw [List.nil_append, at?_nil, Option.bind_some]
  | cons name place ih =>
    cases tree with
    | file bytes => rfl
    | link target => rfl
    | dir entries =>
      rw [List.cons_append, at?_dir_cons, at?_dir_cons, Option.bind_assoc]
      exact congrArg _ (funext fun node ↦ ih node)

/-- The entries of a directory are the nodes one name further. -/
theorem at?_append_singleton {tree : Node} {place : Place} {entries : List (String × Node)}
    (h : tree.at? place = some (dir entries)) (name : String) :
    tree.at? (place ++ [name]) = entries.lookup name := by
  rw [at?_append, h, Option.bind_some, at?_dir_cons]
  cases entries.lookup name <;> simp

/-- A node by itself: the entries of a directory are left out. -/
def bare : Node → Node
  | dir _ => dir []
  | node => node

/-- What a path can tell about a node: neither its bytes nor its entries. -/
def outline : Node → Node
  | file _ => file []
  | link target => link target
  | dir _ => dir []

theorem outline_eq_link_iff {node : Node} {target : String} :
    node.outline = .link target ↔ node = .link target := by
  cases node <;> simp [outline]

/-- What stands at a place. -/
def bareAt? (tree : Node) (place : Place) : Option Node := (tree.at? place).map bare

theorem isDir_bare (node : Node) : node.bare.isDir = node.isDir := by
  cases node <;> rfl

theorem bare_eq_file_iff {node : Node} {bytes : List UInt8} :
    node.bare = .file bytes ↔ node = .file bytes := by
  cases node <;> simp [bare]

/-- Nothing lies below a node that has no entries. -/
theorem at?_cons_of_bare_eq {node : Node} (h : node.bare = node) (name : String) (place : Place) :
    node.at? (name :: place) = none := by
  cases node with
  | file bytes => rfl
  | link target => rfl
  | dir entries =>
    obtain rfl : [] = entries := by simpa [bare] using h
    rfl

/-! ### Putting a node at a place -/

/-- In an existing directory a node is put at its place with all that lies below it. -/
theorem at?_put_append {tree new : Node} {place : Place} {name : String}
    {entries : List (String × Node)} (h : tree.at? place = some (dir entries)) (rest : Place) :
    (tree.put (place ++ [name]) new).at? (place ++ name :: rest) = new.at? rest := by
  induction place generalizing tree with
  | nil =>
    obtain rfl : tree = dir entries := by simpa using h
    simp [put, lookup_setEntry]
  | cons first place ih =>
    cases tree with
    | file bytes => cases h
    | link target => cases h
    | dir outer =>
      obtain ⟨node, hnode, hplace⟩ := Option.bind_eq_some_iff.1 h
      -- the way to the place goes on behind its first name, so the entry is not replaced yet
      obtain ⟨next, others, hnext⟩ : ∃ next others, place ++ [name] = next :: others := by
        cases place <;> simp
      have hput : (dir outer).put (first :: (place ++ [name])) new =
          dir (setEntry first (node.put (place ++ [name]) new) outer) := by
        rw [hnext]
        simp only [put, hnode]
      rw [List.cons_append, List.cons_append, hput, at?_dir_cons, lookup_setEntry, if_pos rfl,
        Option.bind_some]
      exact ih hplace

/-- A node that replaces another one is found at its place with all that lies below it. -/
theorem at?_put_append_of_isSome {tree new : Node} {place : Place} (h : (tree.at? place).isSome)
    (rest : Place) : (tree.put place new).at? (place ++ rest) = new.at? rest := by
  induction place using List.reverseRecOn with
  | nil => cases tree <;> rfl
  | append_singleton place name _ =>
    rw [at?_append] at h
    cases hplace : tree.at? place with
    | none => simp [hplace] at h
    | some node =>
      cases node with
      | file bytes => simp [hplace, at?] at h
      | link target => simp [hplace, at?] at h
      | dir entries => rw [List.append_assoc]; exact at?_put_append hplace rest

/-- Places that do not lie at or below the place show what they have shown before. -/
theorem bareAt?_put_of_not_prefix {tree new : Node} {place other : Place}
    (h : ¬place <+: other) : (tree.put place new).bareAt? other = tree.bareAt? other := by
  fun_induction put tree place new generalizing other with
  | case1 tree new => exact absurd (List.nil_prefix) h
  | case2 entries name new =>
    cases other with
    | nil => rfl
    | cons key other =>
      have hkey : key ≠ name := by rintro rfl; exact h (by simp)
      simp [bareAt?, lookup_setEntry, hkey]
  | case3 entries name next place new node hnode ih =>
    cases other with
    | nil => rfl
    | cons key other =>
      by_cases hkey : key = name
      · subst hkey
        have hother : ¬next :: place <+: other := fun hle ↦ h (by simpa using hle)
        simpa [bareAt?, lookup_setEntry, hnode] using ih hother
      · simp [bareAt?, lookup_setEntry, hkey]
  | case4 entries name next place new hnode => rfl
  | case5 => rfl

/-- Where nothing has been below the place, only the place itself shows something else. -/
theorem bareAt?_put {tree new : Node} {place : Place} (hnew : new.bare = new)
    (hput : ∀ rest, (tree.put place new).at? (place ++ rest) = new.at? rest)
    (hbelow : ∀ name rest, tree.at? (place ++ name :: rest) = none) (other : Place) :
    (tree.put place new).bareAt? other =
      if other = place then some new else tree.bareAt? other := by
  by_cases hle : place <+: other
  · obtain ⟨rest, rfl⟩ := hle
    cases rest with
    | nil =>
      have hself : (tree.put place new).at? place = some new := by simpa using hput []
      simp [bareAt?, hself, hnew]
    | cons name rest =>
      rw [if_neg (by simp), bareAt?, bareAt?, hput, hbelow, at?_cons_of_bare_eq hnew]
  · have hother : other ≠ place := by
      rintro rfl
      exact hle (List.prefix_refl other)
    rw [if_neg hother, bareAt?_put_of_not_prefix hle]

/-- A node without entries is added to a directory. -/
theorem bareAt?_put_of_free {tree new : Node} {place : Place} {name : String}
    {entries : List (String × Node)} (h : tree.at? place = some (dir entries))
    (hname : entries.lookup name = none) (hnew : new.bare = new) (other : Place) :
    (tree.put (place ++ [name]) new).bareAt? other =
      if other = place ++ [name] then some new else tree.bareAt? other := by
  refine bareAt?_put hnew (fun rest ↦ ?_) (fun next rest ↦ ?_) other
  · rw [List.append_assoc]
    exact at?_put_append h rest
  · rw [at?_append, at?_append_singleton h, hname, Option.bind_none]

/-- A node without entries takes the place of another one. -/
theorem bareAt?_put_of_at? {tree old new : Node} {place : Place} (h : tree.at? place = some old)
    (hold : old.bare = old) (hnew : new.bare = new) (other : Place) :
    (tree.put place new).bareAt? other =
      if other = place then some new else tree.bareAt? other := by
  refine bareAt?_put hnew (at?_put_append_of_isSome (by rw [h]; rfl)) (fun next rest ↦ ?_) other
  rw [at?_append, h, Option.bind_some, at?_cons_of_bare_eq hold]

/-! ### All places -/

mutual

/-- The places of all nodes of a tree. -/
def places : Node → List Place
  | file _ => [[]]
  | link _ => [[]]
  | dir entries => [] :: placesOfEntries entries

/-- The places of all nodes below a directory. -/
def placesOfEntries : List (String × Node) → List Place
  | [] => []
  | (name, node) :: rest => node.places.map (name :: ·) ++ placesOfEntries rest

end

theorem mem_placesOfEntries {entries : List (String × Node)} {name : String} {node : Node}
    {place : Place} (h : entries.lookup name = some node) (hplace : place ∈ node.places) :
    name :: place ∈ placesOfEntries entries := by
  induction entries with
  | nil => cases h
  | cons entry entries ih =>
    obtain ⟨other, first⟩ := entry
    rw [lookup_cons_ite] at h
    rw [placesOfEntries, List.mem_append]
    split at h
    · rename_i hname
      obtain rfl : first = node := by simpa using h
      exact .inl (List.mem_map.2 ⟨place, hplace, by rw [hname]⟩)
    · exact .inr (ih h)

theorem mem_places {tree : Node} {place : Place} (h : (tree.at? place).isSome) :
    place ∈ tree.places := by
  induction place generalizing tree with
  | nil => cases tree <;> simp [places]
  | cons name place ih =>
    cases tree with
    | file bytes => simp [at?] at h
    | link target => simp [at?] at h
    | dir entries =>
      rw [at?_dir_cons] at h
      cases hnode : entries.lookup name with
      | none => simp [hnode] at h
      | some node =>
        rw [hnode] at h
        exact List.mem_cons_of_mem _ (mem_placesOfEntries hnode (ih h))

end SchemaDiagram.Node
