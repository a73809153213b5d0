import Mathlib.Data.List.Induction
import Mathlib.Data.List.Nodup
import SchemaDiagram.Schema.Relationship

/-!
# Relationships and the pairs of models they connect

The relationships of a list of associations are built one declaration at a time. What the fold
builds has a closed form: the distinct pairs in the order in which they first occur, each with
what is declared between its two models (`relationships_eq_map`). Everything about edges is read
off that form.

## What the order of the edges rests on

* A declaration goes to the relationship of its own pair and to no other
  (`insertDeclaration_map`), so a pair keeps the place of its first declaration.
* An edge connects the pair of its relationship, whichever member is drawn on the left
  (`Relationship.pair_edge`). Edges of different pairs are therefore different, and drawing
  identical edges once leaves every edge in.
-/

namespace SchemaDiagram

/-! ### Pairs -/

theorem Pair.of_low_high (p : Pair) : Pair.of p.low p.high = p := by
  simp [Pair.of, p.low_le_high]

/-- The order in which two names are given does not matter to their pair. -/
theorem Pair.of_comm (a b : String) : Pair.of a b = Pair.of b a := by
  unfold Pair.of
  by_cases hab : a ≤ b
  · by_cases hba : b ≤ a
    · obtain rfl : a = b := String.le_antisymm hab hba
      rfl
    · rw [dif_pos hab, dif_neg hba]
  · have hba : b ≤ a := (String.le_total a b).resolve_left hab
    rw [dif_neg hab, dif_pos hba]

/-- The two models that an edge connects. -/
def Edge.pair (e : Edge) : Pair := Pair.of e.left e.right

/-! ### Distinct members in the order of their first occurrence -/

section FirstOccurrences

variable {α : Type} [DecidableEq α]

theorem eraseDups_concat (xs : List α) (x : α) :
    (xs ++ [x]).eraseDups = if x ∈ xs then xs.eraseDups else xs.eraseDups ++ [x] := by
  rw [List.eraseDups_append]
  by_cases hx : x ∈ xs
  · simp [List.cons_removeAll, hx]
  · simp [List.cons_removeAll, List.eraseDups_cons, hx]

theorem eraseDups_nodup (xs : List α) : xs.eraseDups.Nodup := by
  induction xs using List.reverseRecOn with
  | nil => exact List.nodup_nil
  | append_singleton xs x ih =>
    rw [eraseDups_concat]
    split
    · exact ih
    · next hx =>
      rw [List.nodup_append]
      refine ⟨ih, List.nodup_singleton x, ?_⟩
      rintro y hy z hz rfl
      rw [List.mem_singleton] at hz
      subst hz
      exact hx (List.mem_eraseDups.1 hy)

theorem eraseDups_eq_self {xs : List α} (h : xs.Nodup) : xs.eraseDups = xs := by
  induction xs with
  | nil => rfl
  | cons x xs ih =>
    obtain ⟨hx, hxs⟩ := List.nodup_cons.1 h
    have hkeep : (xs.filter fun y ↦ !y == x) = xs := by
      rw [List.filter_eq_self]
      intro y hy
      have hne : y ≠ x := fun heq ↦ hx (heq ▸ hy)
      simp [hne]
    rw [List.eraseDups_cons, hkeep, ih hxs]

/-- Members that occur already have no first occurrence further behind. -/
theorem eraseDups_append_of_forall_mem {xs ys : List α} (h : ∀ y ∈ ys, y ∈ xs) :
    (xs ++ ys).eraseDups = xs.eraseDups := by
  have hnone : ys.removeAll xs = [] := by
    rw [List.removeAll, List.filter_eq_nil_iff]
    intro y hy
    simp [h y hy]
  rw [List.eraseDups_append, hnone]
  exact List.append_nil _

/-- A function that keeps the members apart keeps their first occurrences. -/
theorem eraseDups_map_of_injOn {β : Type} [DecidableEq β] {g : α → β} {xs : List α}
    (h : ∀ x ∈ xs, ∀ y ∈ xs, g x = g y → x = y) :
    (xs.map g).eraseDups = xs.eraseDups.map g := by
  induction xs using List.reverseRecOn with
  | nil => rfl
  | append_singleton xs x ih =>
    have hxs := ih fun y hy z hz ↦ h y (List.mem_append_left _ hy) z (List.mem_append_left _ hz)
    have hmem : g x ∈ xs.map g ↔ x ∈ xs := by
      refine ⟨fun hmem ↦ ?_, List.mem_map_of_mem⟩
      obtain ⟨y, hy, heq⟩ := List.mem_map.1 hmem
      rwa [← h y (List.mem_append_left _ hy) x (by simp) heq]
    rw [List.map_append, List.map_singleton, eraseDups_concat, eraseDups_concat, hxs]
    simp only [hmem]
    split
    · rfl
    · rw [List.map_append, List.map_singleton]

end FirstOccurrences

/-! ### The relationship of one pair -/

namespace Relationship

/-- What a list of associations declares about one pair, if all of them are between its models. -/
def gather (p : Pair) (associations : List Association) : Relationship :=
  associations.foldl add { pair := p }

@[simp] theorem pair_add (r : Relationship) (a : Association) : (r.add a).pair = r.pair := by
  unfold add
  split <;> rfl

@[simp] theorem gather_nil (p : Pair) : gather p [] = { pair := p } := rfl

theorem gather_concat (p : Pair) (associations : List Association) (a : Association) :
    gather p (associations ++ [a]) = (gather p associations).add a := by
  simp [gather, List.foldl_append]

@[simp] theorem pair_gather (p : Pair) (associations : List Association) :
    (gather p associations).pair = p := by
  induction associations using List.reverseRecOn with
  | nil => rfl
  | append_singleton associations a ih => rw [gather_concat, pair_add, ih]

/-- **An edge connects the pair of its relationship**, on whichever side each member is drawn. -/
theorem pair_edge (r : Relationship) : r.edge.pair = r.pair := by
  unfold Edge.pair edge
  by_cases h : r.shape?.map Prod.snd = some .high
  · simp only [if_pos h]
    rw [Pair.of_comm, Pair.of_low_high]
  · simp only [if_neg h]
    exact Pair.of_low_high r.pair

end Relationship

/-! ### The relationships of all pairs -/

/-- The declarations between the two models of a pair. -/
def declaredBetween (associations : List Association) (p : Pair) : List Association :=
  associations.filter fun a ↦ a.pair = p

/-- The pairs of models between which something is declared, in the order of their first
declaration. -/
def declaredPairs (associations : List Association) : List Pair :=
  (associations.map Association.pair).eraseDups

theorem mem_declaredPairs_iff {associations : List Association} {p : Pair} :
    p ∈ declaredPairs associations ↔ ∃ a ∈ associations, a.pair = p := by
  rw [declaredPairs, List.mem_eraseDups, List.mem_map]

theorem declaredPairs_nodup (associations : List Association) :
    (declaredPairs associations).Nodup :=
  eraseDups_nodup _

theorem declaredPairs_concat (associations : List Association) (a : Association) :
    declaredPairs (associations ++ [a]) =
      if a.pair ∈ declaredPairs associations then declaredPairs associations
      else declaredPairs associations ++ [a.pair] := by
  simp only [declaredPairs, List.map_append, List.map_singleton, eraseDups_concat,
    List.mem_eraseDups]

theorem declaredBetween_concat (associations : List Association) (a : Association) (p : Pair) :
    declaredBetween (associations ++ [a]) p =
      if a.pair = p then declaredBetween associations p ++ [a]
      else declaredBetween associations p := by
  by_cases h : a.pair = p <;> simp [declaredBetween, h]

theorem declaredBetween_eq_nil {associations : List Association} {p : Pair}
    (h : p ∉ declaredPairs associations) : declaredBetween associations p = [] := by
  rw [declaredBetween, List.filter_eq_nil_iff]
  intro a ha hpair
  exact h (mem_declaredPairs_iff.2 ⟨a, ha, of_decide_eq_true hpair⟩)

/-- The relationship of a pair after one more declaration. -/
theorem gather_declaredBetween_concat (associations : List Association) (a : Association)
    (p : Pair) :
    Relationship.gather p (declaredBetween (associations ++ [a]) p) =
      if a.pair = p then (Relationship.gather p (declaredBetween associations p)).add a
      else Relationship.gather p (declaredBetween associations p) := by
  rw [declaredBetween_concat]
  split
  · exact Relationship.gather_concat p _ a
  · rfl

/-- A declaration is added to the relationship of its own pair, or starts one at the end. The pairs
are distinct, so there is only one relationship to add it to. -/
theorem insertDeclaration_map {ps : List Pair} (hps : ps.Nodup) {f : Pair → Relationship}
    (hf : ∀ p, (f p).pair = p) (a : Association) :
    insertDeclaration (ps.map f) a =
      if a.pair ∈ ps then ps.map fun p ↦ if a.pair = p then (f p).add a else f p
      else ps.map f ++ [Relationship.add { pair := a.pair } a] := by
  induction ps with
  | nil => rfl
  | cons p ps ih =>
    obtain ⟨hp, hps⟩ := List.nodup_cons.1 hps
    rw [List.map_cons, insertDeclaration, hf p]
    by_cases h : a.pair = p
    · -- the relationship is found at the front, and none of the others has its pair
      have hothers : (ps.map fun q ↦ if a.pair = q then (f q).add a else f q) = ps.map f := by
        refine List.map_congr_left fun q hq ↦ ?_
        rw [if_neg]
        rintro rfl
        exact hp (h ▸ hq)
      rw [if_pos h.symm, if_pos (by simp [h]), List.map_cons, if_pos h, hothers]
    · rw [if_neg (Ne.symm h), ih hps]
      by_cases hmem : a.pair ∈ ps
      · rw [if_pos hmem, if_pos (List.mem_cons_of_mem p hmem), List.map_cons, if_neg h]
      · rw [if_neg hmem, if_neg (by simp [h, hmem]), List.cons_append]

/-- **The closed form of the fold.** The relationships are the declared pairs in order, each with
the declarations between its two models. -/
theorem relationships_eq_map (associations : List Association) :
    relationships associations =
      (declaredPairs associations).map fun p ↦
        Relationship.gather p (declaredBetween associations p) := by
  induction associations using List.reverseRecOn with
  | nil => rfl
  | append_singleton associations a ih =>
    have hstep : relationships (associations ++ [a]) =
        insertDeclaration (relationships associations) a := by
      simp [relationships, List.foldl_append]
    rw [hstep, ih, insertDeclaration_map (declaredPairs_nodup associations) fun p ↦
      Relationship.pair_gather p (declaredBetween associations p)]
    simp only [gather_declaredBetween_concat, declaredPairs_concat]
    by_cases hmem : a.pair ∈ declaredPairs associations
    · rw [if_pos hmem, if_pos hmem]
    · -- nothing was declared between the two models before, so their relationship starts empty
      have hold : ((declaredPairs associations).map fun p ↦
          if a.pair = p then (Relationship.gather p (declaredBetween associations p)).add a
          else Relationship.gather p (declaredBetween associations p)) =
          (declaredPairs associations).map fun p ↦
            Relationship.gather p (declaredBetween associations p) := by
        refine List.map_congr_left fun p hp ↦ if_neg ?_
        rintro rfl
        exact hmem hp
      rw [if_neg hmem, if_neg hmem, List.map_append, hold, List.map_singleton, if_pos rfl,
        declaredBetween_eq_nil hmem, Relationship.gather_nil]

/-! ### The edges -/

/-- Before identical edges are merged, the edges connect the declared pairs one by one. -/
theorem map_pair_map_edge (associations : List Association) :
    ((relationships associations).map Relationship.edge).map Edge.pair =
      declaredPairs associations := by
  rw [relationships_eq_map, List.map_map, List.map_map]
  calc (declaredPairs associations).map _
      = (declaredPairs associations).map id :=
        List.map_congr_left fun p _ ↦ by simp [Relationship.pair_edge]
    _ = declaredPairs associations := List.map_id _

/-- **Merging identical edges drops none**: two edges connect two pairs. -/
theorem edges_eq_map (associations : List Association) :
    edges associations = (relationships associations).map Relationship.edge := by
  have hnodup : (((relationships associations).map Relationship.edge).map Edge.pair).Nodup := by
    rw [map_pair_map_edge]
    exact declaredPairs_nodup associations
  exact eraseDups_eq_self (List.Nodup.of_map Edge.pair hnodup)

/-- **One edge for each pair of models.** The pairs that the edges connect are the pairs of the
declarations, each at its first occurrence; so no pair has two edges, a pair has an edge exactly
when something is declared between its models, and no edge is lost when identical ones are
merged. -/
theorem edges_connect_declared_pairs (associations : List Association) :
    (edges associations).map Edge.pair = (associations.map Association.pair).eraseDups ∧
      ((edges associations).map Edge.pair).Nodup ∧
      (∀ p : Pair, ((edges associations).filter fun e ↦ e.pair = p).length =
        if ∃ a ∈ associations, a.pair = p then 1 else 0) ∧
      edges associations = (relationships associations).map Relationship.edge := by
  have hpairs : (edges associations).map Edge.pair = declaredPairs associations := by
    rw [edges_eq_map, map_pair_map_edge]
  have hnodup : ((edges associations).map Edge.pair).Nodup := by
    rw [hpairs]
    exact declaredPairs_nodup associations
  refine ⟨hpairs, hnodup, fun p ↦ ?_, edges_eq_map associations⟩
  have hcount : ((edges associations).filter fun e ↦ e.pair = p).length =
      ((edges associations).map Edge.pair).count p := by
    rw [List.count, List.countP_map, List.countP_eq_length_filter]
    rfl
  rw [hcount, hnodup.count, hpairs]
  simp only [mem_declaredPairs_iff]

end SchemaDiagram
