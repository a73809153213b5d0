import Mathlib.Data.List.Sort
import SchemaDiagram.Proofs.Schema.Edge

/-!
# The labels of edges

An edge is labelled with the names that the associations between its two models are given, or, if
none of them is given a name, with its cardinality in words (`edges_label`). The names come from all
declarations between the two models, in whichever direction they go and wherever they stand among
the declarations of other pairs. Each name stands once, at its first use.

What is meant by first use is said without the way in which the list is built
(`IsFirstOccurrencesOf`), and there is one such list (`IsFirstOccurrencesOf.unique`). An empty name
is a name like any other.
-/

namespace SchemaDiagram

variable {associations : List Association} {p : Pair}

/-! ### First occurrences -/

section FirstOccurrences

variable {α : Type} [DecidableEq α]

/-- The members of a list, each once, in the order in which they first occur in it. -/
structure IsFirstOccurrencesOf (distinct all : List α) : Prop where
  mem_iff : ∀ x, x ∈ distinct ↔ x ∈ all
  /-- What stands earlier occurs earlier. -/
  pairwise_idxOf_lt : distinct.Pairwise fun x y ↦ all.idxOf x < all.idxOf y

theorem IsFirstOccurrencesOf.nodup {distinct all : List α} (h : IsFirstOccurrencesOf distinct all) :
    distinct.Nodup :=
  h.pairwise_idxOf_lt.imp fun hlt heq ↦ Nat.ne_of_lt hlt (congrArg all.idxOf heq)

/-- **There is one list of first occurrences.** -/
theorem IsFirstOccurrencesOf.unique {distinct other all : List α}
    (h : IsFirstOccurrencesOf distinct all) (h' : IsFirstOccurrencesOf other all) :
    distinct = other := by
  have hperm : distinct.Perm other := (List.perm_ext_iff_of_nodup h.nodup h'.nodup).2 fun x ↦
    (h.mem_iff x).trans (h'.mem_iff x).symm
  refine hperm.eq_of_pairwise (fun x y _ _ hlt hgt ↦ ?_) h.pairwise_idxOf_lt h'.pairwise_idxOf_lt
  exact absurd hgt (Nat.lt_asymm hlt)

theorem isFirstOccurrencesOf_eraseDups (all : List α) :
    IsFirstOccurrencesOf all.eraseDups all := by
  refine ⟨fun x ↦ List.mem_eraseDups, ?_⟩
  induction all using List.reverseRecOn with
  | nil => exact .nil
  | append_singleton all x ih =>
    -- one more member at the end moves none of the earlier first occurrences
    have hold {y : α} (hy : y ∈ all.eraseDups) : (all ++ [x]).idxOf y = all.idxOf y :=
      List.idxOf_append_of_mem (List.mem_eraseDups.1 hy)
    have hpairwise : all.eraseDups.Pairwise fun y z ↦
        (all ++ [x]).idxOf y < (all ++ [x]).idxOf z :=
      ih.imp_of_mem fun hy hz hlt ↦ by rwa [hold hy, hold hz]
    rw [eraseDups_concat]
    split
    · exact hpairwise
    · next hx =>
      refine List.pairwise_append.2 ⟨hpairwise, List.pairwise_singleton _ x, fun y hy z hz ↦ ?_⟩
      rw [List.mem_singleton.1 hz, hold hy, List.idxOf_append_of_notMem hx]
      exact Nat.lt_add_right _ (List.idxOf_lt_length_of_mem (List.mem_eraseDups.1 hy))

end FirstOccurrences

/-! ### Labels -/

/-- The names given to the associations between two models, in the order of their declarations. -/
def namesBetween (associations : List Association) (p : Pair) : List String :=
  (declaredBetween associations p).filterMap Association.aliasName

theorem mem_namesBetween_iff {name : String} :
    name ∈ namesBetween associations p ↔ IsAliasOf associations p name := by
  simp [namesBetween, declaredBetween, IsAliasOf, and_assoc]

/-- **The names are the label**, or the cardinality is if there are none. -/
theorem label_pairEdge (associations : List Association) (p : Pair) :
    (pairEdge associations p).label =
      if namesBetween associations p = [] then
        (pairEdge associations p).cardinality.map Cardinality.word
      else some (String.intercalate ", " (namesBetween associations p).eraseDups) := by
  have haliases : (Relationship.gather p (declaredBetween associations p)).aliases =
      (namesBetween associations p).eraseDups :=
    Relationship.aliases_gather p _
  have hempty : (namesBetween associations p).eraseDups.isEmpty = true ↔
      namesBetween associations p = [] := by
    rw [List.isEmpty_iff, List.eq_nil_iff_forall_not_mem, List.eq_nil_iff_forall_not_mem]
    simp only [List.mem_eraseDups]
  show (Relationship.gather p (declaredBetween associations p)).label? = _
  rw [Relationship.label?, haliases, pairEdge, Relationship.edge, Option.map_map]
  simp only [hempty]
  rfl

/-- **The label of a declared pair.** There is one edge between two models of which one declares
something on the other. If any of their associations is given a name, its label consists of the
distinct names that they are given, in the order of their first use; otherwise it is the word for
the edge's cardinality. -/
theorem edges_label (associations : List Association) {p : Pair}
    (hp : ∃ a ∈ associations, a.pair = p) :
    ∃ e names, ((edges associations).filter fun e ↦ e.pair = p) = [e] ∧
      (∀ other, IsFirstOccurrencesOf other (namesBetween associations p) ↔ other = names) ∧
      (∀ name, name ∈ names ↔ IsAliasOf associations p name) ∧
      ((∃ name, IsAliasOf associations p name) →
        e.label = some (String.intercalate ", " names)) ∧
      ((∀ name, ¬IsAliasOf associations p name) →
        ∃ c, e.cardinality = some c ∧ e.label = some c.word) := by
  have hdeclared : p ∈ declaredPairs associations := mem_declaredPairs_iff.2 hp
  have hfirst := isFirstOccurrencesOf_eraseDups (namesBetween associations p)
  refine ⟨pairEdge associations p, (namesBetween associations p).eraseDups,
    filter_pair_edges hdeclared, fun other ↦ ⟨fun h ↦ h.unique hfirst, fun h ↦ h ▸ hfirst⟩,
    fun name ↦ (hfirst.mem_iff name).trans mem_namesBetween_iff, ?_, fun hnone ↦ ?_⟩
  · rintro ⟨name, hname⟩
    rw [label_pairEdge, if_neg (List.ne_nil_of_mem (mem_namesBetween_iff.2 hname))]
  · have hnil : namesBetween associations p = [] :=
      List.eq_nil_iff_forall_not_mem.2 fun name hname ↦ hnone name (mem_namesBetween_iff.1 hname)
    obtain ⟨c, hcardinality⟩ := exists_cardinality_pairEdge hdeclared
    exact ⟨c, hcardinality, by rw [label_pairEdge, if_pos hnil, hcardinality, Option.map_some]⟩

/-- Declarations of two pairs in turn. Between a user and a post, one name is given in both
directions and one is empty; a name of the other pair comes before them. -/
def namedDeclarations : List Association :=
  [{ source := "Post", target := "Tag", kind := .belongsToMany, aliasName := some "labels" },
    { source := "User", target := "Post", kind := .hasMany, aliasName := some "posts" },
    { source := "Post", target := "User", kind := .belongsTo },
    { source := "Tag", target := "Post", kind := .belongsToMany, aliasName := some "posts" },
    { source := "Post", target := "User", kind := .belongsTo, aliasName := some "" },
    { source := "Post", target := "User", kind := .hasOne, aliasName := some "posts" }]

theorem edges_label_namedDeclarations :
    (∃ a ∈ namedDeclarations, a.pair = Pair.of "Post" "User") ∧
      (∃ e names,
        ((edges namedDeclarations).filter fun e ↦ e.pair = Pair.of "Post" "User") = [e] ∧
        (∀ other, IsFirstOccurrencesOf other
          (namesBetween namedDeclarations (Pair.of "Post" "User")) ↔ other = names) ∧
        (∀ name, name ∈ names ↔ IsAliasOf namedDeclarations (Pair.of "Post" "User") name) ∧
        ((∃ name, IsAliasOf namedDeclarations (Pair.of "Post" "User") name) →
          e.label = some (String.intercalate ", " names)) ∧
        ((∀ name, ¬IsAliasOf namedDeclarations (Pair.of "Post" "User") name) →
          ∃ c, e.cardinality = some c ∧ e.label = some c.word)) ∧
      (edges namedDeclarations).map Edge.label = [some "labels, posts", some "posts, "] := by
  have hp : ∃ a ∈ namedDeclarations, a.pair = Pair.of "Post" "User" := by decide +kernel
  exact ⟨hp, edges_label _ hp, by decide +kernel⟩

end SchemaDiagram
