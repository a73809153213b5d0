import SchemaDiagram.Proofs.Report

/-!
# Repeated declarations

Associations are often declared more than once: on both sides, in several files, or because a file
is taken in twice. A declaration that says again what was said before leaves the edges as they are,
in their order and with their labels (`edges_absorb_repetitions`).

What was said is the source, the kind, the target and the name of an association
(`Association.Repeats`). An edge shows nothing else, so the keys and the joining model of the two
declarations may differ.
-/

namespace SchemaDiagram

/-- The association says again what another one says, as far as an edge can show it. -/
structure Association.Repeats (a b : Association) : Prop where
  source_eq : a.source = b.source
  kind_eq : a.kind = b.kind
  target_eq : a.target = b.target
  aliasName_eq : a.aliasName = b.aliasName

instance (a b : Association) : Decidable (a.Repeats b) :=
  decidable_of_iff (a.source = b.source ∧ a.kind = b.kind ∧ a.target = b.target ∧
      a.aliasName = b.aliasName)
    ⟨fun ⟨hsource, hkind, htarget, halias⟩ ↦ ⟨hsource, hkind, htarget, halias⟩,
      fun h ↦ ⟨h.source_eq, h.kind_eq, h.target_eq, h.aliasName_eq⟩⟩

theorem Association.Repeats.refl (a : Association) : a.Repeats a := ⟨rfl, rfl, rfl, rfl⟩

theorem Association.Repeats.pair_eq {a b : Association} (h : a.Repeats b) : a.pair = b.pair := by
  rw [Association.pair, h.source_eq, h.target_eq, Association.pair]

section Repetitions

variable {associations others : List Association}

/-- Repetitions add no declaration of a kind that was not there before. -/
theorem exists_mem_append_iff_of_repeats
    (h : ∀ a ∈ others, ∃ b ∈ associations, a.Repeats b) {P : Association → Prop}
    (hP : ∀ a b : Association, a.Repeats b → P a → P b) :
    (∃ a ∈ associations ++ others, P a) ↔ ∃ a ∈ associations, P a := by
  constructor
  · rintro ⟨a, hmem, ha⟩
    rcases List.mem_append.1 hmem with hmem | hmem
    · exact ⟨a, hmem, ha⟩
    · obtain ⟨b, hb, hrepeats⟩ := h a hmem
      exact ⟨b, hb, hP a b hrepeats ha⟩
  · rintro ⟨a, hmem, ha⟩
    exact ⟨a, List.mem_append_left others hmem, ha⟩

/-- **Repetitions do not change an edge**: its ends and its cardinality depend on which kinds are
declared on which side, and its label on the first use of each name. -/
theorem Relationship.edge_gather_append (h : ∀ a ∈ others, ∃ b ∈ associations, a.Repeats b)
    (p : Pair) : (gather p (associations ++ others)).edge = (gather p associations).edge := by
  have hshape : (gather p (associations ++ others)).shape? = (gather p associations).shape? := by
    refine shape?_congr (fun kind ↦ ?_) fun kind ↦ ?_
    · rw [mem_forward_gather, mem_forward_gather]
      refine exists_mem_append_iff_of_repeats h fun a b hrepeats hside ↦ ?_
      rwa [← hrepeats.source_eq, ← hrepeats.kind_eq]
    · rw [mem_backward_gather, mem_backward_gather]
      refine exists_mem_append_iff_of_repeats h fun a b hrepeats hside ↦ ?_
      rwa [← hrepeats.source_eq, ← hrepeats.kind_eq]
  have haliases :
      (gather p (associations ++ others)).aliases = (gather p associations).aliases := by
    rw [aliases_gather, aliases_gather, List.filterMap_append]
    refine eraseDups_append_of_forall_mem fun name hname ↦ ?_
    obtain ⟨a, ha, hgiven⟩ := List.mem_filterMap.1 hname
    obtain ⟨b, hb, hrepeats⟩ := h a ha
    exact List.mem_filterMap.2 ⟨b, hb, hrepeats.aliasName_eq ▸ hgiven⟩
  simp only [edge, label?, pair_gather, hshape, haliases]

theorem declaredPairs_append_of_repeats (h : ∀ a ∈ others, ∃ b ∈ associations, a.Repeats b) :
    declaredPairs (associations ++ others) = declaredPairs associations := by
  rw [declaredPairs, List.map_append]
  refine eraseDups_append_of_forall_mem fun p hp ↦ ?_
  obtain ⟨a, ha, rfl⟩ := List.mem_map.1 hp
  obtain ⟨b, hb, hrepeats⟩ := h a ha
  exact List.mem_map.2 ⟨b, hb, hrepeats.pair_eq.symm⟩

theorem edges_append_of_repeats (h : ∀ a ∈ others, ∃ b ∈ associations, a.Repeats b) :
    edges (associations ++ others) = edges associations := by
  rw [edges_eq_map_pairEdge, edges_eq_map_pairEdge, declaredPairs_append_of_repeats h]
  refine List.map_congr_left fun p _ ↦ ?_
  rw [pairEdge, declaredBetween_append]
  refine Relationship.edge_gather_append (fun a ha ↦ ?_) p
  -- what is repeated is a declaration between the same two models
  obtain ⟨hmem, hpair⟩ := List.mem_filter.1 ha
  obtain ⟨b, hb, hrepeats⟩ := h a hmem
  exact ⟨b, List.mem_filter.2 ⟨hb, hrepeats.pair_eq ▸ hpair⟩, hrepeats⟩

end Repetitions

/-- **Repeated declarations are absorbed.** Declarations that only repeat earlier ones add no edge
and change none, so taking in a list of texts twice gives the edges of taking it in once. -/
theorem edges_absorb_repetitions :
    (∀ associations others : List Association,
      (∀ a ∈ others, ∃ b ∈ associations, a.Repeats b) →
        edges (associations ++ others) = edges associations) ∧
      ∀ texts : List String,
        (Report.ofTexts (texts ++ texts)).edges = (Report.ofTexts texts).edges := by
  refine ⟨fun associations others h ↦ edges_append_of_repeats h, fun texts ↦ ?_⟩
  rw [Report.ofTexts_eq, Report.ofTexts_eq, List.flatMap_append]
  exact edges_append_of_repeats fun a ha ↦ ⟨a, ha, .refl a⟩

/-- Declarations of two pairs, one of them with a name. -/
def firstDeclarations : List Association :=
  [{ source := "User", target := "Post", kind := .hasMany, aliasName := some "posts" },
    { source := "Post", target := "Tag", kind := .belongsToMany },
    { source := "Post", target := "User", kind := .belongsTo }]

/-- The same in another order, with keys and a joining model. -/
def repeatedDeclarations : List Association :=
  [{ source := "Post", target := "User", kind := .belongsTo, foreignKey := some "userId" },
    { source := "Post", target := "Tag", kind := .belongsToMany, through := some "PostTag" },
    { source := "User", target := "Post", kind := .hasMany, aliasName := some "posts",
      sourceKey := some "id" }]

theorem edges_absorb_repeatedDeclarations :
    (∀ a ∈ repeatedDeclarations, ∃ b ∈ firstDeclarations, a.Repeats b) ∧
      edges (firstDeclarations ++ repeatedDeclarations) = edges firstDeclarations ∧
      (edges firstDeclarations).length = 2 ∧
      (Report.ofTexts ([Report.userText] ++ [Report.userText])).edges =
        (Report.ofTexts [Report.userText]).edges := by
  have hrepeats : ∀ a ∈ repeatedDeclarations, ∃ b ∈ firstDeclarations, a.Repeats b := by
    decide +kernel
  exact ⟨hrepeats, edges_absorb_repetitions.1 _ _ hrepeats, by decide +kernel,
    edges_absorb_repetitions.2 [Report.userText]⟩

end SchemaDiagram
