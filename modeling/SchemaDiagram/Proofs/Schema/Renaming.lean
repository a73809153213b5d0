import Mathlib.Data.Set.Function
import SchemaDiagram.Proofs.Schema.Label
import SchemaDiagram.Proofs.Schema.Ladder

/-!
# Models by other names

The edges depend on what the models are called only as far as names tell models apart, and where a
tie has to be broken. If the models of a list of associations are given other names, no two the
same, then the edges are those of the renamed pairs, in the same order and with the same cardinality
and label (`edges_rename`). Their ends are the renamed ends, unless the deciding rule applies in
both directions, in which case the order of the names decides.

## Why this needs the ladder

A renaming may exchange the smaller and the greater name of a pair, and then it exchanges the two
sides of the relationship. The ladder speaks of a source and a target instead. A rule applies to
two models exactly if it applies to the renamed ones (`Rung.IsRenamed`), so the same rule decides
(`IsDecidedBy.rename`), whichever of the two names is the smaller one.
-/

namespace SchemaDiagram

variable {associations : List Association} {p : Pair} {f : String → String}

/-! ### Pairs -/

theorem Pair.of_eq_of_iff {a b c d : String} :
    Pair.of a b = Pair.of c d ↔ a = c ∧ b = d ∨ a = d ∧ b = c := by
  constructor
  · intro h
    have hlow := congrArg Pair.low h
    have hhigh := congrArg Pair.high h
    rcases Pair.low_high_of a b with ⟨ha, hb⟩ | ⟨ha, hb⟩ <;>
      rcases Pair.low_high_of c d with ⟨hc, hd⟩ | ⟨hc, hd⟩ <;>
      rw [ha, hc] at hlow <;> rw [hb, hd] at hhigh
    · exact .inl ⟨hlow, hhigh⟩
    · exact .inr ⟨hlow, hhigh⟩
    · exact .inr ⟨hhigh, hlow⟩
    · exact .inl ⟨hhigh, hlow⟩
  · rintro (⟨rfl, rfl⟩ | ⟨rfl, rfl⟩)
    · rfl
    · exact Pair.of_comm a b

/-- The pair of the renamed models. -/
def Pair.rename (f : String → String) (p : Pair) : Pair := Pair.of (f p.low) (f p.high)

theorem Pair.rename_of (f : String → String) (a b : String) :
    (Pair.of a b).rename f = Pair.of (f a) (f b) := by
  rw [Pair.rename]
  rcases Pair.low_high_of a b with ⟨hlow, hhigh⟩ | ⟨hlow, hhigh⟩
  · rw [hlow, hhigh]
  · rw [hlow, hhigh, Pair.of_comm]

/-- Which of the renamed models has the smaller name is open. -/
theorem Pair.low_high_rename (f : String → String) (p : Pair) :
    (p.rename f).low = f p.low ∧ (p.rename f).high = f p.high ∨
      (p.rename f).low = f p.high ∧ (p.rename f).high = f p.low :=
  Pair.low_high_of (f p.low) (f p.high)

/-! ### Renamed associations -/

/-- The association with its models called by other names. -/
def Association.rename (f : String → String) (a : Association) : Association :=
  { a with source := f a.source, target := f a.target, through := a.through.map f }

theorem Association.pair_rename (f : String → String) (a : Association) :
    (a.rename f).pair = a.pair.rename f :=
  (Pair.rename_of f a.source a.target).symm

/-- What the models are called that associations lead from and to. -/
def modelNames (associations : List Association) : Set String :=
  {name | ∃ a ∈ associations, a.source = name ∨ a.target = name}

theorem low_high_mem_modelNames (hp : p ∈ declaredPairs associations) :
    p.low ∈ modelNames associations ∧ p.high ∈ modelNames associations := by
  obtain ⟨a, ha, hpair⟩ := mem_declaredPairs_iff.1 hp
  rcases Pair.low_high_of_pair hpair with ⟨hsource, htarget⟩ | ⟨hsource, htarget⟩
  · exact ⟨⟨a, ha, .inl hsource⟩, ⟨a, ha, .inr htarget⟩⟩
  · exact ⟨⟨a, ha, .inr htarget⟩, ⟨a, ha, .inl hsource⟩⟩

section Renaming

variable (hf : Set.InjOn f (modelNames associations))
include hf

/-- Two declared pairs stay two. -/
theorem rename_injOn : Set.InjOn (Pair.rename f) {p | p ∈ declaredPairs associations} := by
  intro p hp q hq h
  obtain ⟨hplow, hphigh⟩ := low_high_mem_modelNames hp
  obtain ⟨hqlow, hqhigh⟩ := low_high_mem_modelNames hq
  rw [← Pair.of_low_high p, ← Pair.of_low_high q, Pair.of_eq_of_iff]
  refine (Pair.of_eq_of_iff.1 h).imp (fun ⟨hlow, hhigh⟩ ↦ ?_) fun ⟨hlow, hhigh⟩ ↦ ?_
  · exact ⟨hf hplow hqlow hlow, hf hphigh hqhigh hhigh⟩
  · exact ⟨hf hplow hqhigh hlow, hf hphigh hqlow hhigh⟩

/-- The renamed pairs are declared in the same order. -/
theorem declaredPairs_rename : declaredPairs (associations.map (Association.rename f)) =
    (declaredPairs associations).map (Pair.rename f) := by
  have hpairs : (associations.map (Association.rename f)).map Association.pair =
      (associations.map Association.pair).map (Pair.rename f) := by
    rw [List.map_map, List.map_map]
    exact List.map_congr_left fun a _ ↦ a.pair_rename f
  rw [declaredPairs, hpairs]
  refine eraseDups_map_of_injOn fun p hp q hq h ↦ rename_injOn hf ?_ ?_ h
  · exact List.mem_eraseDups.2 hp
  · exact List.mem_eraseDups.2 hq

theorem declaredBetween_rename (hp : p ∈ declaredPairs associations) :
    declaredBetween (associations.map (Association.rename f)) (p.rename f) =
      (declaredBetween associations p).map (Association.rename f) := by
  rw [declaredBetween, List.filter_map]
  refine congrArg _ (List.filter_congr fun a ha ↦ decide_eq_decide.2 ?_)
  rw [Association.pair_rename]
  exact (rename_injOn hf).eq_iff (mem_declaredPairs_iff.2 ⟨a, ha, rfl⟩) hp

/-- The names that associations are given are not those of models. -/
theorem namesBetween_rename (hp : p ∈ declaredPairs associations) :
    namesBetween (associations.map (Association.rename f)) (p.rename f) =
      namesBetween associations p := by
  rw [namesBetween, declaredBetween_rename hf hp, List.filterMap_map]
  rfl

theorem declares_rename_iff (kind : AssociationKind) {x y : String}
    (hx : x ∈ modelNames associations) (hy : y ∈ modelNames associations) :
    Declares (associations.map (Association.rename f)) (f x) kind (f y) ↔
      Declares associations x kind y := by
  constructor
  · rintro ⟨_, hmem, hsource, hkind, htarget⟩
    obtain ⟨a, ha, rfl⟩ := List.mem_map.1 hmem
    exact ⟨a, ha, hf ⟨a, ha, .inl rfl⟩ hx hsource, hkind, hf ⟨a, ha, .inr rfl⟩ hy htarget⟩
  · rintro ⟨a, ha, rfl, rfl, rfl⟩
    exact ⟨a.rename f, List.mem_map_of_mem ha, rfl, rfl, rfl⟩

end Renaming

/-! ### The rule that decides -/

/-- The first rule of a ladder that applies to a pair, in one direction or in both. -/
inductive IsDecidedBy (p : Pair) : List Rung → Rung → Prop where
  /-- The first rule applies. -/
  | here {r : Rung} {rungs : List Rung} (h : r.applies p.low p.high ∨ r.applies p.high p.low) :
      IsDecidedBy p (r :: rungs) r
  /-- The first rule does not apply. -/
  | later {r s : Rung} {rungs : List Rung}
      (hnot : ¬(r.applies p.low p.high ∨ r.applies p.high p.low)) (h : IsDecidedBy p rungs s) :
      IsDecidedBy p (r :: rungs) s

theorem IsDecidedBy.unique {rungs : List Rung} {r s : Rung} (h : IsDecidedBy p rungs r)
    (h' : IsDecidedBy p rungs s) : r = s := by
  induction h with
  | here happlies =>
    cases h' with
    | here => rfl
    | later hnot => exact absurd happlies hnot
  | later hnot _ ih =>
    cases h' with
    | here happlies => exact absurd happlies hnot
    | later _ h' => exact ih h'

/-- The rule applies between two models in both directions, so that the order of their names has to
decide which is on the left. -/
def Rung.IsTie (r : Rung) (p : Pair) : Prop :=
  p.low ≠ p.high ∧ r.applies p.low p.high ∧ r.applies p.high p.low

/-- The rule that decides gives the cardinality and applies to the ends as they are drawn. -/
theorem FirstRung.exists_isDecidedBy {rungs : List Rung} {c : Cardinality} {left right : String}
    (h : FirstRung p rungs c left right) :
    ∃ r, IsDecidedBy p rungs r ∧ r.cardinality = c ∧ r.applies left right := by
  induction h with
  | low happlies => exact ⟨_, .here (.inl happlies), rfl, happlies⟩
  | high _ happlies => exact ⟨_, .here (.inr happlies), rfl, happlies⟩
  | later hlow hhigh _ ih =>
    obtain ⟨r, hr, hcardinality, happlies⟩ := ih
    exact ⟨r, .later (not_or.2 ⟨hlow, hhigh⟩) hr, hcardinality, happlies⟩

/-- Two rules that are the same but for the names of the two models of a pair. -/
structure Rung.IsRenamed (f : String → String) (p : Pair) (r r' : Rung) : Prop where
  cardinality_eq : r'.cardinality = r.cardinality
  low_high : r'.applies (f p.low) (f p.high) ↔ r.applies p.low p.high
  high_low : r'.applies (f p.high) (f p.low) ↔ r.applies p.high p.low

/-- In one direction or in the other, the renamed rule applies to the renamed pair. -/
theorem Rung.IsRenamed.applies_iff {r r' : Rung} (h : r.IsRenamed f p r') :
    (r'.applies (p.rename f).low (p.rename f).high ∨
      r'.applies (p.rename f).high (p.rename f).low) ↔
        (r.applies p.low p.high ∨ r.applies p.high p.low) := by
  rw [← h.low_high, ← h.high_low]
  rcases p.low_high_rename f with ⟨hlow, hhigh⟩ | ⟨hlow, hhigh⟩
  · rw [hlow, hhigh]
  · rw [hlow, hhigh, or_comm]

/-- **The same rule decides by other names.** -/
theorem IsDecidedBy.rename {rungs rungs' : List Rung} {r : Rung}
    (hrungs : List.Forall₂ (Rung.IsRenamed f p) rungs rungs') (h : IsDecidedBy p rungs r) :
    ∃ r', IsDecidedBy (p.rename f) rungs' r' ∧ r.IsRenamed f p r' := by
  induction h generalizing rungs' with
  | here happlies =>
    obtain _ | ⟨hr, -⟩ := hrungs
    exact ⟨_, .here (hr.applies_iff.2 happlies), hr⟩
  | later hnot _ ih =>
    obtain _ | ⟨hr, hrungs⟩ := hrungs
    obtain ⟨s', hs', hrenamed⟩ := ih hrungs
    exact ⟨s', .later (hr.applies_iff.not.2 hnot) hs', hrenamed⟩

/-- The rules for the renamed declarations are the renamed rules. -/
theorem forall₂_isRenamed_ladder (hf : Set.InjOn f (modelNames associations))
    (hp : p ∈ declaredPairs associations) :
    List.Forall₂ (Rung.IsRenamed f p) (ladder (Declares associations))
      (ladder (Declares (associations.map (Association.rename f)))) := by
  obtain ⟨hlow, hhigh⟩ := low_high_mem_modelNames hp
  have hdeclares (kind : AssociationKind) := declares_rename_iff hf kind hlow hhigh
  have hdeclares' (kind : AssociationKind) := declares_rename_iff hf kind hhigh hlow
  have hne : f p.low ≠ f p.high ↔ p.low ≠ p.high := (hf.eq_iff hlow hhigh).not
  have hne' : f p.high ≠ f p.low ↔ p.high ≠ p.low := (hf.eq_iff hhigh hlow).not
  refine .cons ?_ (.cons ?_ (.cons ?_ (.cons ?_ (.cons ?_ (.cons ?_ .nil))))) <;>
    exact ⟨rfl, by simp only [hdeclares, hdeclares', hne],
      by simp only [hdeclares, hdeclares', hne']⟩

/-! ### Renamed edges -/

/-- The edge of a pair and the edge of the renamed pair. -/
structure Edge.IsRenamed (f : String → String) (associations : List Association)
    (e e' : Edge) : Prop where
  pair_eq : e'.pair = Pair.of (f e.left) (f e.right)
  cardinality_eq : e'.cardinality = e.cardinality
  label_eq : e'.label = e.label
  /-- Without a tie, the renamed left end is on the left. -/
  ends_eq : ∀ r, IsDecidedBy e.pair (ladder (Declares associations)) r → ¬r.IsTie e.pair →
    e'.left = f e.left ∧ e'.right = f e.right

/-- An edge connects the two models of its pair. -/
theorem FirstRung.left_right_eq {rungs : List Rung} {c : Cardinality} {left right : String}
    (h : FirstRung p rungs c left right) :
    left = p.low ∧ right = p.high ∨ left = p.high ∧ right = p.low := by
  induction h with
  | low => exact .inl ⟨rfl, rfl⟩
  | high => exact .inr ⟨rfl, rfl⟩
  | later _ _ _ ih => exact ih

/-- A rule that is no tie leaves one way to draw an edge, by the old names and by the new ones. -/
theorem Rung.IsRenamed.left_right_eq {r r' : Rung} (h : r.IsRenamed f p r') (htie : ¬r.IsTie p)
    {left right left' right' : String} (happlies : r.applies left right)
    (happlies' : r'.applies left' right')
    (hends : left = p.low ∧ right = p.high ∨ left = p.high ∧ right = p.low)
    (hends' : left' = f p.low ∧ right' = f p.high ∨ left' = f p.high ∧ right' = f p.low) :
    left' = f left ∧ right' = f right := by
  -- drawn the other way round, the rule would apply in both directions
  have hself : r.applies p.low p.high → r.applies p.high p.low → p.low = p.high := by
    intro hlow hhigh
    by_contra hne
    exact htie ⟨hne, hlow, hhigh⟩
  rcases hends with ⟨rfl, rfl⟩ | ⟨rfl, rfl⟩ <;> rcases hends' with ⟨rfl, rfl⟩ | ⟨rfl, rfl⟩
  · exact ⟨rfl, rfl⟩
  · rw [hself happlies (h.high_low.1 happlies')]
    exact ⟨rfl, rfl⟩
  · rw [hself (h.low_high.1 happlies') happlies]
    exact ⟨rfl, rfl⟩
  · exact ⟨rfl, rfl⟩

theorem isRenamed_pairEdge (hf : Set.InjOn f (modelNames associations))
    (hp : p ∈ declaredPairs associations) :
    (pairEdge associations p).IsRenamed f associations
      (pairEdge (associations.map (Association.rename f)) (p.rename f)) := by
  have hp' : p.rename f ∈ declaredPairs (associations.map (Association.rename f)) := by
    rw [declaredPairs_rename hf]
    exact List.mem_map_of_mem hp
  obtain ⟨_, hc, hfirst⟩ := firstRung_pairEdge hp
  obtain ⟨_, hc', hfirst'⟩ := firstRung_pairEdge hp'
  obtain ⟨r, hr, rfl, happlies⟩ := hfirst.exists_isDecidedBy
  obtain ⟨s, hs, rfl, happlies'⟩ := hfirst'.exists_isDecidedBy
  obtain ⟨r', hr', hrenamed⟩ := hr.rename (forall₂_isRenamed_ladder hf hp)
  obtain rfl : s = r' := hs.unique hr'
  have hcardinality :
      (pairEdge (associations.map (Association.rename f)) (p.rename f)).cardinality =
        (pairEdge associations p).cardinality := by
    rw [hc, hc', hrenamed.cardinality_eq]
  have hends' := hfirst'.left_right_eq
  refine ⟨?_, hcardinality, ?_, fun decider hdecider htie ↦ ?_⟩
  · rw [pair_pairEdge, ← Pair.rename_of]
    exact congrArg (Pair.rename f) (pair_pairEdge associations p).symm
  · rw [label_pairEdge, label_pairEdge, namesBetween_rename hf hp, hcardinality]
  · rw [pair_pairEdge] at hdecider htie
    obtain rfl : decider = r := hdecider.unique hr
    refine hrenamed.left_right_eq htie happlies happlies' hfirst.left_right_eq ?_
    rcases p.low_high_rename f with ⟨hlow, hhigh⟩ | ⟨hlow, hhigh⟩ <;> rw [hlow, hhigh] at hends'
    · exact hends'
    · exact hends'.symm

/-- **Names matter only to break ties.** Let the models of a list of associations be called by other
names, no two by the same. Then the edges are, one by one, those of the renamed pairs, with the same
cardinality and the same label. If the rule that decides on an edge applies in one direction only,
then its ends are the renamed ends in their order. -/
theorem edges_rename (associations : List Association) (f : String → String)
    (hf : Set.InjOn f (modelNames associations)) :
    List.Forall₂ (Edge.IsRenamed f associations) (edges associations)
      (edges (associations.map (Association.rename f))) := by
  rw [edges_eq_map_pairEdge, edges_eq_map_pairEdge, declaredPairs_rename hf, List.map_map,
    List.forall₂_map_left_iff, List.forall₂_map_right_iff, List.forall₂_same]
  exact fun p hp ↦ isRenamed_pairEdge hf hp

/-- The name read backwards. -/
def backwards (name : String) : String := String.ofList name.toList.reverse

theorem backwards_injective : Function.Injective backwards := fun _ _ h ↦
  String.toList_injective (List.reverse_injective (String.ofList_injective h))

/-- Backwards, the names stand in the opposite order. The edge that is decided in one direction
keeps its left end, and the tie does not. -/
theorem edges_rename_backwards :
    Set.InjOn backwards (modelNames conflictingDeclarations) ∧
      List.Forall₂ (Edge.IsRenamed backwards conflictingDeclarations)
        (edges conflictingDeclarations)
        (edges (conflictingDeclarations.map (Association.rename backwards))) ∧
      (edges conflictingDeclarations).map Edge.left = ["User", "Post"] ∧
      (edges (conflictingDeclarations.map (Association.rename backwards))).map Edge.left =
        ["resU", "gaT"] :=
  have hf := backwards_injective.injOn
  ⟨hf, edges_rename _ _ hf, by decide +kernel, by decide +kernel⟩

end SchemaDiagram
