import Mathlib.Data.List.Perm.Basic
import SchemaDiagram.Proofs.Schema.Relationship

/-!
# The edge of a pair

What is declared between two models decides their edge (`pairEdge`), and the edges of a list of
associations are the edges of its pairs (`edges_eq_map_pairEdge`). So a statement about one edge is
a statement about the declarations between its two models.

## What an edge does not depend on

* On the declarations of other pairs (`pairEdge_append_left`, `pairEdge_append_right`).
* On the order of the declarations, but for the order of the names in the label. The ends and the
  cardinality are decided by which kinds are declared on which side (`Relationship.shape?_congr`),
  and the label by which names are given (`Relationship.mem_aliases_gather`).
-/

namespace SchemaDiagram

variable {associations others : List Association} {p : Pair}

/-! ### The two names of a pair -/

/-- The two names of a pair are the two that it is made of. -/
theorem Pair.low_high_of (a b : String) :
    (Pair.of a b).low = a ∧ (Pair.of a b).high = b ∨
      (Pair.of a b).low = b ∧ (Pair.of a b).high = a := by
  unfold Pair.of
  split
  · exact .inl ⟨rfl, rfl⟩
  · exact .inr ⟨rfl, rfl⟩

/-! ### What a relationship holds -/

namespace Relationship

theorem forward_add (r : Relationship) (a : Association) :
    (r.add a).forward = if a.source = r.pair.low then r.forward ++ [a.kind] else r.forward := by
  unfold add
  split <;> rfl

theorem backward_add (r : Relationship) (a : Association) :
    (r.add a).backward = if a.source = r.pair.low then r.backward else r.backward ++ [a.kind] := by
  unfold add
  split <;> rfl

theorem aliases_add (r : Relationship) (a : Association) :
    (r.add a).aliases = addAlias r.aliases a.aliasName := by
  unfold add
  split <;> rfl

/-- The kinds on the smaller name are those that it declares. -/
theorem mem_forward_gather {kind : AssociationKind} :
    kind ∈ (gather p associations).forward ↔
      ∃ a ∈ associations, a.source = p.low ∧ a.kind = kind := by
  induction associations using List.reverseRecOn with
  | nil => simp
  | append_singleton associations a ih =>
    rw [gather_concat, forward_add, pair_gather]
    by_cases h : a.source = p.low
    · simp [h, ih, or_and_right, exists_or, eq_comm]
    · simp [h, ih, or_and_right, exists_or]

/-- The kinds on the greater name are those that are not declared on the smaller one. -/
theorem mem_backward_gather {kind : AssociationKind} :
    kind ∈ (gather p associations).backward ↔
      ∃ a ∈ associations, a.source ≠ p.low ∧ a.kind = kind := by
  induction associations using List.reverseRecOn with
  | nil => simp
  | append_singleton associations a ih =>
    rw [gather_concat, backward_add, pair_gather]
    by_cases h : a.source = p.low
    · simp [h, ih, or_and_right, exists_or]
    · simp [h, ih, or_and_right, exists_or, @eq_comm _ kind a.kind]

/-- The names of a relationship are those that its declarations give, each at its first use. -/
theorem aliases_gather (p : Pair) (associations : List Association) :
    (gather p associations).aliases =
      (associations.filterMap Association.aliasName).eraseDups := by
  induction associations using List.reverseRecOn with
  | nil => rfl
  | append_singleton associations a ih =>
    rw [gather_concat, aliases_add, ih, List.filterMap_append]
    cases halias : a.aliasName with
    | none => simp [halias, addAlias]
    | some name => simp [halias, addAlias, eraseDups_concat]

theorem mem_aliases_gather {name : String} :
    name ∈ (gather p associations).aliases ↔ ∃ a ∈ associations, a.aliasName = some name := by
  rw [aliases_gather, List.mem_eraseDups, List.mem_filterMap]

theorem nodup_aliases_gather : (gather p associations).aliases.Nodup := by
  rw [aliases_gather]
  exact eraseDups_nodup _

/-- **The ends and the cardinality of an edge** depend only on which kinds are declared on which
side. -/
theorem shape?_congr {r other : Relationship}
    (hforward : ∀ kind, kind ∈ r.forward ↔ kind ∈ other.forward)
    (hbackward : ∀ kind, kind ∈ r.backward ↔ kind ∈ other.backward) :
    r.shape? = other.shape? := by
  simp only [shape?, declaredOn, answeredOn, ownedFrom, hforward, hbackward]

/-- A relationship in which anything is declared has a cardinality. -/
theorem isSome_shape? {r : Relationship} {kind : AssociationKind}
    (h : kind ∈ r.forward ∨ kind ∈ r.backward) : r.shape?.isSome = true := by
  have hdeclared : (r.declaredOn kind).isSome = true := by
    rcases h with h | h
    · simp [declaredOn, h]
    · by_cases hforward : kind ∈ r.forward <;> simp [declaredOn, h, hforward]
  have howned (hkind : kind = .belongsTo) : r.ownedFrom.isSome = true := by
    subst hkind
    rcases h with h | h
    · by_cases hbackward : .belongsTo ∈ r.backward <;> simp [ownedFrom, h, hbackward]
    · simp [ownedFrom, h]
  cases kind with
  | hasMany => simp [shape?, hdeclared]
  | hasOne => simp [shape?, hdeclared]
  | belongsToMany => simp [shape?, hdeclared]
  | belongsTo => simp [shape?, howned rfl]

end Relationship

/-- A pair with a declaration has a kind on one of its sides. -/
theorem exists_kind_gather (hp : p ∈ declaredPairs associations) :
    ∃ kind, kind ∈ (Relationship.gather p (declaredBetween associations p)).forward ∨
      kind ∈ (Relationship.gather p (declaredBetween associations p)).backward := by
  obtain ⟨a, hmem, hpair⟩ := mem_declaredPairs_iff.1 hp
  have hdeclared : a ∈ declaredBetween associations p :=
    List.mem_filter.2 ⟨hmem, decide_eq_true hpair⟩
  refine ⟨a.kind, ?_⟩
  by_cases hlow : a.source = p.low
  · exact .inl (Relationship.mem_forward_gather.2 ⟨a, hdeclared, hlow, rfl⟩)
  · exact .inr (Relationship.mem_backward_gather.2 ⟨a, hdeclared, hlow, rfl⟩)

/-! ### The edge of one pair -/

/-- The edge that the declarations between the two models of a pair lead to. -/
def pairEdge (associations : List Association) (p : Pair) : Edge :=
  (Relationship.gather p (declaredBetween associations p)).edge

theorem pair_pairEdge (associations : List Association) (p : Pair) :
    (pairEdge associations p).pair = p := by
  rw [pairEdge, Relationship.pair_edge, Relationship.pair_gather]

/-- The edge of a declared pair has a cardinality. -/
theorem exists_cardinality_pairEdge (hp : p ∈ declaredPairs associations) :
    ∃ c, (pairEdge associations p).cardinality = some c := by
  obtain ⟨kind, hkind⟩ := exists_kind_gather hp
  obtain ⟨shape, hshape⟩ := Option.isSome_iff_exists.1 (Relationship.isSome_shape? hkind)
  exact ⟨shape.1, by simp [pairEdge, Relationship.edge, hshape]⟩

/-- **The edges are the edges of the declared pairs**, in the order of the pairs. -/
theorem edges_eq_map_pairEdge (associations : List Association) :
    edges associations = (declaredPairs associations).map (pairEdge associations) := by
  rw [edges_eq_map, relationships_eq_map, List.map_map]
  rfl

theorem map_pair_edges (associations : List Association) :
    (edges associations).map Edge.pair = declaredPairs associations := by
  rw [edges_eq_map, map_pair_map_edge]

theorem mem_edges_iff {e : Edge} :
    e ∈ edges associations ↔ ∃ q ∈ declaredPairs associations, pairEdge associations q = e := by
  rw [edges_eq_map_pairEdge, List.mem_map]

/-- A declared pair has one edge. -/
theorem filter_pair_edges (h : p ∈ declaredPairs associations) :
    ((edges associations).filter fun e ↦ e.pair = p) = [pairEdge associations p] := by
  have hpred : (fun e : Edge ↦ decide (e.pair = p)) ∘ pairEdge associations =
      fun q ↦ decide (q = p) :=
    funext fun q ↦ by simp only [Function.comp_apply, pair_pairEdge]
  have hcount : (declaredPairs associations).count p = 1 :=
    List.count_eq_one_of_mem (declaredPairs_nodup associations) h
  rw [edges_eq_map_pairEdge, List.filter_map, hpred, List.filter_eq, hcount]
  rfl

/-! ### More declarations -/

theorem declaredBetween_append (associations others : List Association) (p : Pair) :
    declaredBetween (associations ++ others) p =
      declaredBetween associations p ++ declaredBetween others p :=
  List.filter_append _ _

/-- Declarations of other pairs behind those of a pair do not change its edge. -/
theorem pairEdge_append_left (h : p ∉ declaredPairs others) :
    pairEdge (associations ++ others) p = pairEdge associations p := by
  rw [pairEdge, declaredBetween_append, declaredBetween_eq_nil h, List.append_nil, pairEdge]

/-- Declarations of other pairs before those of a pair do not change its edge. -/
theorem pairEdge_append_right (h : p ∉ declaredPairs associations) :
    pairEdge (associations ++ others) p = pairEdge others p := by
  rw [pairEdge, declaredBetween_append, declaredBetween_eq_nil h, List.nil_append, pairEdge]

theorem mem_declaredPairs_append :
    p ∈ declaredPairs (associations ++ others) ↔
      p ∈ declaredPairs associations ∨ p ∈ declaredPairs others := by
  simp only [mem_declaredPairs_iff, List.mem_append, or_and_right, exists_or]

/-- **New pairs come behind the old ones**, in their own order. -/
theorem declaredPairs_append (associations others : List Association) :
    declaredPairs (associations ++ others) =
      declaredPairs associations ++
        (declaredPairs others).filter fun q ↦ q ∉ declaredPairs associations := by
  induction others using List.reverseRecOn with
  | nil => simp [declaredPairs]
  | append_singleton others a ih =>
    rw [← List.append_assoc, declaredPairs_concat, declaredPairs_concat]
    by_cases hothers : a.pair ∈ declaredPairs others
    · rw [if_pos (mem_declaredPairs_append.2 (.inr hothers)), if_pos hothers, ih]
    · by_cases hold : a.pair ∈ declaredPairs associations
      · rw [if_pos (mem_declaredPairs_append.2 (.inl hold)), if_neg hothers, ih, List.filter_append]
        simp [hold]
      · have hnew : a.pair ∉ declaredPairs (associations ++ others) := fun h ↦
          (mem_declaredPairs_append.1 h).elim hold hothers
        rw [if_neg hnew, if_neg hothers, ih, List.filter_append]
        simp [hold]

/-! ### Declarations in another order -/

theorem declaredPairs_perm (h : associations.Perm others) :
    (declaredPairs associations).Perm (declaredPairs others) := by
  rw [List.perm_ext_iff_of_nodup (declaredPairs_nodup _) (declaredPairs_nodup _)]
  intro q
  simp only [mem_declaredPairs_iff, h.mem_iff]

/-- The names that are given to the associations of a pair. -/
def IsAliasOf (associations : List Association) (p : Pair) (name : String) : Prop :=
  ∃ a ∈ associations, a.pair = p ∧ a.aliasName = some name

/-- Two edges with the same ends and the same cardinality. Their labels are the same word for the
cardinality, or they list the same distinct names, each edge in an order of its own. -/
structure Edge.SameButForOrder (isAlias : String → Prop) (e other : Edge) : Prop where
  left_eq : e.left = other.left
  right_eq : e.right = other.right
  cardinality_eq : e.cardinality = other.cardinality
  /-- Without names, the labels are the word for the cardinality; else they list all names. -/
  label : (∃ c, (∀ name, ¬isAlias name) ∧ e.cardinality = some c ∧ e.label = some c.word ∧
      other.label = some c.word) ∨
    ∃ names names' : List String, names ≠ [] ∧ names.Nodup ∧ names.Perm names' ∧
      (∀ name, name ∈ names ↔ isAlias name) ∧
      e.label = some (String.intercalate ", " names) ∧
      other.label = some (String.intercalate ", " names')

namespace Relationship

/-- Two relationships of a pair in which the same kinds are declared on the same sides, and the
same names are given, have the same edge but for the order of the names. -/
theorem edge_sameButForOrder {r other : Relationship} {kind : AssociationKind}
    (hpair : r.pair = other.pair) (hshape : r.shape? = other.shape?)
    (hnodup : r.aliases.Nodup) (hnodup' : other.aliases.Nodup)
    (hnames : ∀ name, name ∈ r.aliases ↔ name ∈ other.aliases)
    (hkind : kind ∈ r.forward ∨ kind ∈ r.backward) :
    r.edge.SameButForOrder (· ∈ r.aliases) other.edge := by
  have hperm : r.aliases.Perm other.aliases :=
    (List.perm_ext_iff_of_nodup hnodup hnodup').2 hnames
  refine ⟨by simp only [edge, hpair, hshape], by simp only [edge, hpair, hshape],
    by simp only [edge, hshape], ?_⟩
  rcases hempty : r.aliases.isEmpty with - | -
  · have hempty' : other.aliases.isEmpty = false := by rw [← hperm.isEmpty_eq, hempty]
    refine .inr ⟨r.aliases, other.aliases, ?_, hnodup, hperm, fun name ↦ Iff.rfl, ?_, ?_⟩
    · exact List.isEmpty_eq_false_iff.1 hempty
    · simp [edge, label?, hempty]
    · simp [edge, label?, hempty']
  · have hempty' : other.aliases.isEmpty = true := by rw [← hperm.isEmpty_eq, hempty]
    obtain ⟨shape, hsome⟩ := Option.isSome_iff_exists.1 (isSome_shape? hkind)
    refine .inl ⟨shape.1, ?_, ?_, ?_, ?_⟩
    · simp [List.isEmpty_iff.1 hempty]
    · simp [edge, hsome]
    · simp [edge, label?, hempty, hsome]
    · simp [edge, label?, hempty', ← hshape, hsome]

end Relationship

/-- **The order of the declarations does not matter to an edge**, but for the order of the names in
its label. -/
theorem pairEdge_perm (h : associations.Perm others) (hp : p ∈ declaredPairs associations) :
    (pairEdge associations p).SameButForOrder (IsAliasOf associations p) (pairEdge others p) := by
  have hbetween : (declaredBetween associations p).Perm (declaredBetween others p) := h.filter _
  have hshape : (Relationship.gather p (declaredBetween associations p)).shape? =
      (Relationship.gather p (declaredBetween others p)).shape? :=
    Relationship.shape?_congr
      (fun kind ↦ by simp only [Relationship.mem_forward_gather, hbetween.mem_iff])
      (fun kind ↦ by simp only [Relationship.mem_backward_gather, hbetween.mem_iff])
  have hnames : ∀ name, name ∈ (Relationship.gather p (declaredBetween associations p)).aliases ↔
      name ∈ (Relationship.gather p (declaredBetween others p)).aliases := fun name ↦ by
    simp only [Relationship.mem_aliases_gather, hbetween.mem_iff]
  obtain ⟨kind, hkind⟩ := exists_kind_gather hp
  have hsame := Relationship.edge_sameButForOrder (by simp) hshape
    Relationship.nodup_aliases_gather Relationship.nodup_aliases_gather hnames hkind
  have halias : (· ∈ (Relationship.gather p (declaredBetween associations p)).aliases) =
      IsAliasOf associations p := by
    funext name
    simp [Relationship.mem_aliases_gather, IsAliasOf, declaredBetween, and_assoc]
  rwa [halias] at hsame

end SchemaDiagram
