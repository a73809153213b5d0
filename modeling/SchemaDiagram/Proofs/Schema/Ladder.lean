import SchemaDiagram.Proofs.Schema.Edge

/-!
# The rules for the edge of a pair

What is declared between two models decides their edge by the first rule that applies. Here the
rules are read off the declarations themselves, by who declares what on whom (`ladder`), and the
edge of a pair is shown to follow the first of them (`edges_follow_ladder`). Nothing in the rules
speaks of the order or the number of the declarations.

## Two forms of one rule

A relationship keeps the kinds of its two directions apart and counts what a model declares on
itself as declared by the smaller name. So it asks for a side on which a kind is declared, where the
ladder asks for a source and a target. `Rung.Finds` ties the two together, with one lemma for each
way in which a relationship finds a side. A model's associations with itself have no other side that
could answer them, which is why the rungs for answered declarations ask for two models.
-/

namespace SchemaDiagram

variable {associations : List Association} {p : Pair}

/-! ### The ladder -/

/-- Who declares what on whom: a source, a kind and a target. -/
abbrev Declared := String → AssociationKind → String → Prop

/-- What a list of associations declares. -/
def Declares (associations : List Association) : Declared := fun source kind target ↦
  ∃ a ∈ associations, a.source = source ∧ a.kind = kind ∧ a.target = target

/-- A rule for the edge of two models. -/
structure Rung where
  /-- The cardinality of the edge. -/
  cardinality : Cardinality
  /-- Whether the rule applies with the first model on the left. -/
  applies : String → String → Prop

/-- The rules, in the order in which they are tried. -/
def ladder (declared : Declared) : List Rung :=
  [⟨.manyToMany, fun x y ↦ declared x .belongsToMany y ∨ declared y .belongsToMany x⟩,
    ⟨.oneToMany, fun x y ↦ x ≠ y ∧ declared x .hasMany y ∧ declared y .belongsTo x⟩,
    ⟨.oneToOne, fun x y ↦ x ≠ y ∧ declared x .hasOne y ∧ declared y .belongsTo x⟩,
    ⟨.oneToMany, fun x y ↦ declared x .hasMany y⟩,
    ⟨.oneToOne, fun x y ↦ declared x .hasOne y⟩,
    ⟨.oneToMany, fun x y ↦ declared y .belongsTo x ∧
      ∀ kind, declared x kind y ∨ declared y kind x → kind = .belongsTo⟩]

/-- By the first rule that applies to a pair, the edge has this cardinality and these ends. Where
the rule applies in both directions, the smaller name is on the left. -/
inductive FirstRung (p : Pair) : List Rung → Cardinality → (left right : String) → Prop where
  /-- The first rule applies with the smaller name on the left. -/
  | low {r : Rung} {rungs : List Rung} (h : r.applies p.low p.high) :
      FirstRung p (r :: rungs) r.cardinality p.low p.high
  /-- The first rule applies with the greater name on the left only. -/
  | high {r : Rung} {rungs : List Rung} (hlow : ¬r.applies p.low p.high)
      (h : r.applies p.high p.low) : FirstRung p (r :: rungs) r.cardinality p.high p.low
  /-- The first rule does not apply. -/
  | later {r : Rung} {rungs : List Rung} {c : Cardinality} {left right : String}
      (hlow : ¬r.applies p.low p.high) (hhigh : ¬r.applies p.high p.low)
      (h : FirstRung p rungs c left right) : FirstRung p (r :: rungs) c left right

/-- A ladder decides on one edge. -/
theorem FirstRung.unique {rungs : List Rung} {c c' : Cardinality} {left right left' right' : String}
    (h : FirstRung p rungs c left right) (h' : FirstRung p rungs c' left' right') :
    c = c' ∧ left = left' ∧ right = right' := by
  induction h with
  | low happlies => cases h' <;> simp_all
  | high hlow happlies => cases h' <;> simp_all
  | later hlow hhigh _ ih =>
    cases h' with
    | low happlies => exact absurd happlies hlow
    | high _ happlies => exact absurd happlies hhigh
    | later _ _ hrungs => exact ih hrungs

/-! ### What is declared on a side -/

theorem Pair.low_high_of_pair {a : Association} (h : a.pair = p) :
    a.source = p.low ∧ a.target = p.high ∨ a.source = p.high ∧ a.target = p.low := by
  subst h
  rcases Pair.low_high_of a.source a.target with ⟨hlow, hhigh⟩ | ⟨hlow, hhigh⟩
  · exact .inl ⟨hlow.symm, hhigh.symm⟩
  · exact .inr ⟨hhigh.symm, hlow.symm⟩

theorem mem_declaredBetween_iff {a : Association} :
    a ∈ declaredBetween associations p ↔ a ∈ associations ∧
      (a.source = p.low ∧ a.target = p.high ∨ a.source = p.high ∧ a.target = p.low) := by
  rw [declaredBetween, List.mem_filter, decide_eq_true_iff]
  refine and_congr_right fun _ ↦ ⟨Pair.low_high_of_pair, ?_⟩
  rintro (⟨hsource, htarget⟩ | ⟨hsource, htarget⟩)
  · rw [Association.pair, hsource, htarget, Pair.of_low_high]
  · rw [Association.pair, hsource, htarget, Pair.of_comm, Pair.of_low_high]

namespace Relationship

/-- On the side of the smaller name stands what it declares. -/
theorem mem_forward_iff_declares {kind : AssociationKind} :
    kind ∈ (gather p (declaredBetween associations p)).forward ↔
      Declares associations p.low kind p.high := by
  rw [mem_forward_gather]
  constructor
  · rintro ⟨a, hmem, hsource, rfl⟩
    obtain ⟨hmem, ⟨-, htarget⟩ | ⟨hhigh, htarget⟩⟩ := mem_declaredBetween_iff.1 hmem
    · exact ⟨a, hmem, hsource, rfl, htarget⟩
    · exact ⟨a, hmem, hsource, rfl, by rw [htarget, ← hsource, hhigh]⟩
  · rintro ⟨a, hmem, hsource, rfl, htarget⟩
    exact ⟨a, mem_declaredBetween_iff.2 ⟨hmem, .inl ⟨hsource, htarget⟩⟩, hsource, rfl⟩

/-- On the side of the greater name stands what it declares, if it is another model. -/
theorem mem_backward_iff_declares {kind : AssociationKind} :
    kind ∈ (gather p (declaredBetween associations p)).backward ↔
      p.low ≠ p.high ∧ Declares associations p.high kind p.low := by
  rw [mem_backward_gather]
  constructor
  · rintro ⟨a, hmem, hsource, rfl⟩
    obtain ⟨hmem, ⟨hlow, -⟩ | ⟨hhigh, htarget⟩⟩ := mem_declaredBetween_iff.1 hmem
    · exact absurd hlow hsource
    · exact ⟨fun heq ↦ hsource (hhigh.trans heq.symm), a, hmem, hhigh, rfl, htarget⟩
  · rintro ⟨hne, a, hmem, hsource, rfl, htarget⟩
    exact ⟨a, mem_declaredBetween_iff.2 ⟨hmem, .inr ⟨hsource, htarget⟩⟩,
      fun hlow ↦ hne (hlow.symm.trans hsource), rfl⟩

end Relationship

/-! ### From sides to rungs -/

/-- The answer of a search for the left side, the smaller name first, as a rule has it. -/
def Rung.Finds (r : Rung) (p : Pair) : Option Side → Prop
  | some .low => r.applies p.low p.high
  | some .high => r.applies p.high p.low ∧ (p.low = p.high ∨ ¬r.applies p.low p.high)
  | none => ¬r.applies p.low p.high ∧ ¬r.applies p.high p.low

/-- The ends of an edge, given the side that is drawn on the left. -/
def Pair.ends (p : Pair) : Side → String × String
  | .low => (p.low, p.high)
  | .high => (p.high, p.low)

/-- A relationship tries one rule after the other, as the ladder does. -/
theorem FirstRung.of_or {r : Rung} {rungs : List Rung} {found : Option Side}
    {others : Option (Cardinality × Side)} {c : Cardinality} {side : Side}
    (hfound : r.Finds p found)
    (hothers : found = none → others = some (c, side) →
      FirstRung p rungs c (p.ends side).1 (p.ends side).2)
    (h : (found.map (r.cardinality, ·)).or others = some (c, side)) :
    FirstRung p (r :: rungs) c (p.ends side).1 (p.ends side).2 := by
  rcases found with - | found
  · exact .later hfound.1 hfound.2 (hothers rfl h)
  · obtain ⟨rfl, rfl⟩ : r.cardinality = c ∧ found = side := by simpa using h
    cases found with
    | low => exact .low hfound
    | high =>
      obtain ⟨happlies, heq | hlow⟩ := hfound
      · -- of a model and itself, either side is the left one
        have hlow : r.applies p.low p.high := by simpa only [heq] using happlies
        have hfirst : FirstRung p (r :: rungs) r.cardinality p.low p.high := .low hlow
        simpa only [Pair.ends, heq] using hfirst
      · exact .high hlow happlies

/-- A search that looks at the side of the smaller name first finds what the rule says, if the two
agree on each side. What a model declares on itself may be found on either side. -/
theorem Rung.finds_ite {r : Rung} {onLow onHigh : Prop} [Decidable onLow] [Decidable onHigh]
    (hlow : onLow → r.applies p.low p.high) (hhigh : onHigh → r.applies p.high p.low)
    (hlow' : r.applies p.low p.high → onLow ∨ p.low = p.high ∧ onHigh)
    (hhigh' : r.applies p.high p.low → onHigh ∨ p.low = p.high ∧ onLow) :
    r.Finds p (if onLow then some .low else if onHigh then some .high else none) := by
  split
  · next h => exact hlow h
  · next hnlow =>
    split
    · next h =>
      refine ⟨hhigh h, or_iff_not_imp_left.2 fun hne happlies ↦ ?_⟩
      exact (hlow' happlies).elim hnlow fun hself ↦ hne hself.1
    · next hnhigh =>
      exact ⟨fun h ↦ (hlow' h).elim hnlow fun hself ↦ hnhigh hself.2,
        fun h ↦ (hhigh' h).elim hnhigh fun hself ↦ hnlow hself.2⟩

namespace Relationship

/-- A kind that is declared. -/
theorem finds_declaredOn (associations : List Association) (p : Pair) (kind : AssociationKind)
    (c : Cardinality) :
    Rung.Finds ⟨c, fun x y ↦ Declares associations x kind y⟩ p
      ((gather p (declaredBetween associations p)).declaredOn kind) := by
  refine Rung.finds_ite mem_forward_iff_declares.1 (fun h ↦ (mem_backward_iff_declares.1 h).2)
    (fun h ↦ .inl (mem_forward_iff_declares.2 h)) fun h ↦ ?_
  by_cases heq : p.low = p.high
  · exact .inr ⟨heq, mem_forward_iff_declares.2 (by simpa only [heq] using h)⟩
  · exact .inl (mem_backward_iff_declares.2 ⟨heq, h⟩)

/-- A kind that is declared and answered by the other model. -/
theorem finds_answeredOn (kind : AssociationKind) (c : Cardinality) :
    Rung.Finds ⟨c, fun x y ↦ x ≠ y ∧ Declares associations x kind y ∧
      Declares associations y .belongsTo x⟩ p
      ((gather p (declaredBetween associations p)).answeredOn kind) := by
  refine Rung.finds_ite ?_ ?_ ?_ ?_ <;>
    simp only [mem_forward_iff_declares, mem_backward_iff_declares]
  · rintro ⟨hkind, hne, hanswer⟩
    exact ⟨hne, hkind, hanswer⟩
  · rintro ⟨⟨hne, hkind⟩, hanswer⟩
    exact ⟨hne.symm, hkind, hanswer⟩
  · rintro ⟨hne, hkind, hanswer⟩
    exact .inl ⟨hkind, hne, hanswer⟩
  · rintro ⟨hne, hkind, hanswer⟩
    exact .inl ⟨⟨hne.symm, hkind⟩, hanswer⟩

/-- The target of `belongsTo`, if nothing else is declared. -/
theorem finds_ownedFrom (c : Cardinality)
    (honly : ∀ kind, Declares associations p.low kind p.high ∨
      Declares associations p.high kind p.low → kind = .belongsTo) :
    Rung.Finds ⟨c, fun x y ↦ Declares associations y .belongsTo x ∧
      ∀ kind, Declares associations x kind y ∨ Declares associations y kind x →
        kind = .belongsTo⟩ p
      (gather p (declaredBetween associations p)).ownedFrom := by
  refine Rung.finds_ite ?_ ?_ ?_ ?_ <;>
    simp only [mem_forward_iff_declares, mem_backward_iff_declares]
  · exact fun h ↦ ⟨h.2, honly⟩
  · exact fun h ↦ ⟨h, fun kind hkind ↦ honly kind hkind.symm⟩
  · rintro ⟨h, -⟩
    by_cases heq : p.low = p.high
    · exact .inr ⟨heq, by simpa only [heq] using h⟩
    · exact .inl ⟨heq, h⟩
  · exact fun h ↦ .inl h.1

theorem finds_belongsToMany : Rung.Finds ⟨.manyToMany, fun x y ↦
      Declares associations x .belongsToMany y ∨ Declares associations y .belongsToMany x⟩ p
    (((gather p (declaredBetween associations p)).declaredOn .belongsToMany).map fun _ ↦ .low) := by
  have hfinds := finds_declaredOn associations p .belongsToMany .manyToMany
  rcases hside : (gather p (declaredBetween associations p)).declaredOn .belongsToMany
    with - | - | - <;> rw [hside] at hfinds
  · exact ⟨not_or.2 hfinds, not_or.2 hfinds.symm⟩
  · exact .inl hfinds
  · exact .inr hfinds.1

theorem not_declares_of_declaredOn {kind : AssociationKind}
    (h : (gather p (declaredBetween associations p)).declaredOn kind = none) :
    ¬(Declares associations p.low kind p.high ∨ Declares associations p.high kind p.low) := by
  have hfinds := finds_declaredOn associations p kind .oneToMany
  rw [h] at hfinds
  exact not_or.2 hfinds

/-- The rules of a relationship one behind the other. -/
theorem shape?_eq (r : Relationship) : r.shape? =
    (((r.declaredOn .belongsToMany).map fun _ ↦ Side.low).map (.manyToMany, ·)).or
      (((r.answeredOn .hasMany).map (.oneToMany, ·)).or
        (((r.answeredOn .hasOne).map (.oneToOne, ·)).or
          (((r.declaredOn .hasMany).map (.oneToMany, ·)).or
            (((r.declaredOn .hasOne).map (.oneToOne, ·)).or
              ((r.ownedFrom.map (.oneToMany, ·)).or none))))) := by
  simp only [shape?, Option.or_assoc, Option.map_map, Option.or_none]
  rfl

/-- **The shape of a relationship is that of the first rung that applies.** -/
theorem firstRung_of_shape? {c : Cardinality} {side : Side}
    (h : (gather p (declaredBetween associations p)).shape? = some (c, side)) :
    FirstRung p (ladder (Declares associations)) c (p.ends side).1 (p.ends side).2 := by
  rw [shape?_eq] at h
  refine .of_or finds_belongsToMany (fun hjoined h ↦ ?_) h
  refine .of_or (finds_answeredOn .hasMany .oneToMany) (fun _ h ↦ ?_) h
  refine .of_or (finds_answeredOn .hasOne .oneToOne) (fun _ h ↦ ?_) h
  refine .of_or (finds_declaredOn _ _ .hasMany .oneToMany) (fun hmany h ↦ ?_) h
  refine .of_or (finds_declaredOn _ _ .hasOne .oneToOne) (fun hone h ↦ ?_) h
  -- the rules before have left nothing but `belongsTo`
  refine .of_or (finds_ownedFrom .oneToMany fun kind hkind ↦ ?_) (fun _ h ↦ absurd h.symm ?_) h
  · cases kind with
    | belongsTo => rfl
    | hasMany => exact absurd hkind (not_declares_of_declaredOn hmany)
    | hasOne => exact absurd hkind (not_declares_of_declaredOn hone)
    | belongsToMany =>
      exact absurd hkind (not_declares_of_declaredOn (Option.map_eq_none_iff.1 hjoined))
  · exact Option.some_ne_none _

theorem ends_edge (r : Relationship) {c : Cardinality} {side : Side}
    (h : r.shape? = some (c, side)) :
    r.edge.cardinality = some c ∧ (r.edge.left, r.edge.right) = r.pair.ends side := by
  cases side <;> simp [edge, h, Pair.ends]

end Relationship

/-! ### The edge of a declared pair -/

theorem firstRung_pairEdge (hp : p ∈ declaredPairs associations) :
    ∃ c, (pairEdge associations p).cardinality = some c ∧
      FirstRung p (ladder (Declares associations)) c (pairEdge associations p).left
        (pairEdge associations p).right := by
  obtain ⟨kind, hkind⟩ := exists_kind_gather hp
  obtain ⟨⟨c, side⟩, hshape⟩ := Option.isSome_iff_exists.1 (Relationship.isSome_shape? hkind)
  obtain ⟨hcardinality, hends⟩ := Relationship.ends_edge _ hshape
  rw [Relationship.pair_gather] at hends
  have hfirst := Relationship.firstRung_of_shape? hshape
  rw [← hends] at hfirst
  exact ⟨c, hcardinality, hfirst⟩

/-- **The edge of a declared pair follows the ladder.** There is one edge between two models of
which one declares something on the other. It has a cardinality, and its cardinality and its ends
are those of the first rule that applies to what the two declare on each other. -/
theorem edges_follow_ladder (associations : List Association) {p : Pair}
    (hp : ∃ a ∈ associations, a.pair = p) :
    ∃ e c, ((edges associations).filter fun e ↦ e.pair = p) = [e] ∧ e.cardinality = some c ∧
      FirstRung p (ladder (Declares associations)) c e.left e.right ∧
      ∀ c' left right, FirstRung p (ladder (Declares associations)) c' left right →
        c' = c ∧ left = e.left ∧ right = e.right := by
  have hdeclared : p ∈ declaredPairs associations := mem_declaredPairs_iff.2 hp
  obtain ⟨c, hcardinality, hfirst⟩ := firstRung_pairEdge hdeclared
  exact ⟨pairEdge associations p, c, filter_pair_edges hdeclared, hcardinality, hfirst,
    fun c' left right h ↦ h.unique hfirst⟩

/-- Declarations of two pairs in turn. Those between a user and a post conflict: one side has many
of the other without an answer, the other has one and is answered. -/
def conflictingDeclarations : List Association :=
  [{ source := "Post", target := "User", kind := .hasMany },
    { source := "Tag", target := "Post", kind := .belongsToMany },
    { source := "User", target := "Post", kind := .hasOne },
    { source := "Post", target := "User", kind := .belongsTo },
    { source := "Post", target := "User", kind := .hasMany }]

theorem edges_follow_ladder_conflicting :
    (∃ a ∈ conflictingDeclarations, a.pair = Pair.of "Post" "User") ∧
      (∃ e c, ((edges conflictingDeclarations).filter fun e ↦ e.pair = Pair.of "Post" "User") =
          [e] ∧
        e.cardinality = some c ∧
        FirstRung (Pair.of "Post" "User") (ladder (Declares conflictingDeclarations)) c
          e.left e.right ∧
        ∀ c' left right,
          FirstRung (Pair.of "Post" "User") (ladder (Declares conflictingDeclarations)) c'
            left right → c' = c ∧ left = e.left ∧ right = e.right) ∧
      ((edges conflictingDeclarations).filter fun e ↦ e.pair = Pair.of "Post" "User") =
        [{ left := "User", right := "Post", cardinality := some .oneToOne,
           label := some "one-to-one" }] := by
  have hp : ∃ a ∈ conflictingDeclarations, a.pair = Pair.of "Post" "User" := by decide +kernel
  exact ⟨hp, edges_follow_ladder _ hp, by decide +kernel⟩

end SchemaDiagram
