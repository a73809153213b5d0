import SchemaDiagram.Proofs.Schema.Edge
import SchemaDiagram.Report

/-!
# Reports on several texts

A report has a closed form (`Report.ofTexts_eq`): what it lists is found in one text at a time, and
only the edges are made from all of it. Two consequences are drawn here.

* The order in which texts are taken in decides the order of what is listed, and nothing else
  (`Report.ofTexts_perm`).
* A report can be continued: behind what the first texts declare comes what the others declare, and
  a pair of models that only one of the two parts speaks of keeps its edge
  (`Report.ofTexts_append`).
-/

namespace SchemaDiagram

/-- The associations that a text declares outside its comments. -/
def associationsOf (text : String) : List Association :=
  Source.extractAssociations (Text.stripComments text)

/-- What has been collected grows by what each text declares. -/
theorem foldl_ingest (texts : List String) :
    texts.foldl Collection.ingest {} =
      { filesScanned := texts.length
        models := texts.filterMap Source.extractModel
        associations := texts.flatMap associationsOf } := by
  induction texts using List.reverseRecOn with
  | nil => rfl
  | append_singleton texts text ih =>
    rw [List.foldl_append, ih, List.foldl_cons, List.foldl_nil, Collection.ingest,
      List.length_append, List.filterMap_append, List.flatMap_append, List.flatMap_singleton]
    cases hmodel : Source.extractModel text <;> simp [hmodel, associationsOf]

namespace Report

theorem ofTexts_eq (texts : List String) :
    ofTexts texts =
      { filesScanned := texts.length
        models := texts.filterMap Source.extractModel
        associations := texts.flatMap associationsOf
        edges := SchemaDiagram.edges (texts.flatMap associationsOf) } := by
  rw [ofTexts, foldl_ingest]
  rfl

/-! ### Texts in another order -/

/-- Two reports that list the same things in different orders. -/
structure SameButForOrder (r other : Report) : Prop where
  filesScanned_eq : r.filesScanned = other.filesScanned
  models_perm : r.models.Perm other.models
  associations_perm : r.associations.Perm other.associations
  /-- The same pairs of models have an edge. -/
  pairs_perm : (r.edges.map Edge.pair).Perm (other.edges.map Edge.pair)
  /-- The two edges of a pair differ at most in the order of the names in their labels. -/
  edge : ∀ e ∈ r.edges, ∀ e' ∈ other.edges, e.pair = e'.pair →
    e.SameButForOrder (IsAliasOf r.associations e.pair) e'

/-- **The order of the texts affects the order of the report only.** -/
theorem ofTexts_perm {texts others : List String} (h : texts.Perm others) :
    (ofTexts texts).SameButForOrder (ofTexts others) := by
  have hassociations : (texts.flatMap associationsOf).Perm (others.flatMap associationsOf) :=
    h.flatMap_right associationsOf
  rw [ofTexts_eq, ofTexts_eq]
  refine ⟨h.length_eq, h.filterMap _, hassociations, ?_, ?_⟩
  · show ((SchemaDiagram.edges _).map Edge.pair).Perm ((SchemaDiagram.edges _).map Edge.pair)
    rw [map_pair_edges, map_pair_edges]
    exact declaredPairs_perm hassociations
  · intro e he e' he' hpair
    obtain ⟨p, hp, rfl⟩ := mem_edges_iff.1 he
    obtain ⟨q, -, rfl⟩ := mem_edges_iff.1 he'
    rw [pair_pairEdge, pair_pairEdge] at hpair
    subst hpair
    rw [pair_pairEdge]
    exact pairEdge_perm hassociations hp

/-- A text that declares that users have posts. -/
def userText : String := "User.hasMany(Post, \x7b as: 'posts' \x7d); // and friends"

/-- A text that declares that posts belong to users, and that they have tags. -/
def postText : String := "Post.belongsTo(User, \x7b as: 'author' \x7d);\nPost.belongsToMany(Tag);"

/-- The label lists the names in the order of the texts. -/
theorem ofTexts_perm_userText :
    [userText, postText].Perm [postText, userText] ∧
      (ofTexts [userText, postText]).SameButForOrder (ofTexts [postText, userText]) ∧
      (ofTexts [userText, postText]).edges.map Edge.label =
        [some "posts, author", some "many-to-many"] ∧
      (ofTexts [postText, userText]).edges.map Edge.label =
        [some "author, posts", some "many-to-many"] :=
  ⟨.swap _ _ _, ofTexts_perm (.swap _ _ _), by decide +kernel, by decide +kernel⟩

/-! ### More texts -/

/-- **A report can be continued.** The report on two lists of texts counts the texts of both and
lists what the first declares before what the second declares. The pairs with an edge are those of
the first list and then the new ones of the second. A pair that only one list declares has one
edge, the same as in the report on that list alone. -/
theorem ofTexts_append (texts others : List String) :
    (ofTexts (texts ++ others)).filesScanned =
        (ofTexts texts).filesScanned + (ofTexts others).filesScanned ∧
      (ofTexts (texts ++ others)).models = (ofTexts texts).models ++ (ofTexts others).models ∧
      (ofTexts (texts ++ others)).associations =
        (ofTexts texts).associations ++ (ofTexts others).associations ∧
      (ofTexts (texts ++ others)).edges.map Edge.pair =
        (ofTexts texts).edges.map Edge.pair ++
          ((ofTexts others).edges.map Edge.pair).filter
            (fun p ↦ p ∉ (ofTexts texts).edges.map Edge.pair) ∧
      (∀ p ∈ (ofTexts texts).associations.map Association.pair,
        p ∉ (ofTexts others).associations.map Association.pair →
          ∃ e, ((ofTexts texts).edges.filter fun e ↦ e.pair = p) = [e] ∧
            ((ofTexts (texts ++ others)).edges.filter fun e ↦ e.pair = p) = [e]) ∧
      ∀ p ∈ (ofTexts others).associations.map Association.pair,
        p ∉ (ofTexts texts).associations.map Association.pair →
          ∃ e, ((ofTexts others).edges.filter fun e ↦ e.pair = p) = [e] ∧
            ((ofTexts (texts ++ others)).edges.filter fun e ↦ e.pair = p) = [e] := by
  have hdeclared {p : Pair} {list : List String} :
      p ∈ (list.flatMap associationsOf).map Association.pair ↔
        p ∈ declaredPairs (list.flatMap associationsOf) := by
    rw [declaredPairs, List.mem_eraseDups]
  simp only [ofTexts_eq, List.length_append, List.filterMap_append, List.flatMap_append,
    map_pair_edges, declaredPairs_append, hdeclared, true_and]
  refine ⟨fun p hp hother ↦ ⟨pairEdge (texts.flatMap associationsOf) p, filter_pair_edges hp, ?_⟩,
    fun p hp hother ↦ ⟨pairEdge (others.flatMap associationsOf) p, filter_pair_edges hp, ?_⟩⟩
  · rw [filter_pair_edges (mem_declaredPairs_append.2 (.inl hp)), pairEdge_append_left hother]
  · rw [filter_pair_edges (mem_declaredPairs_append.2 (.inr hp)), pairEdge_append_right hother]

/-- Posts and tags keep their edge when the text about users comes first. -/
theorem ofTexts_append_postText :
    Pair.of "Post" "Tag" ∈ (ofTexts [postText]).associations.map Association.pair ∧
      Pair.of "Post" "Tag" ∉ (ofTexts [userText]).associations.map Association.pair ∧
      ∃ e, ((ofTexts [postText]).edges.filter fun e ↦ e.pair = Pair.of "Post" "Tag") = [e] ∧
        ((ofTexts ([userText] ++ [postText])).edges.filter fun e ↦
          e.pair = Pair.of "Post" "Tag") = [e] := by
  have hpost : Pair.of "Post" "Tag" ∈ (ofTexts [postText]).associations.map Association.pair := by
    decide +kernel
  have huser : Pair.of "Post" "Tag" ∉ (ofTexts [userText]).associations.map Association.pair := by
    decide +kernel
  obtain ⟨-, -, -, -, -, hedge⟩ := ofTexts_append [userText] [postText]
  exact ⟨hpost, huser, hedge _ hpost huser⟩

end Report

end SchemaDiagram
