import SchemaDiagram.Proofs.Diagram
import SchemaDiagram.Proofs.Report
import SchemaDiagram.Proofs.Source.Name

/-!
# What every report is like

The report on any texts can be drawn (`Report.isWellFormed_ofTexts`): names are identifiers or
words, the values of modifiers can stand between quotes, and every edge has a cardinality and a
label, so that its line is complete.

An edge gets both from the declarations of its pair, of which there is at least one. One kind on one
side is enough for a cardinality (`Relationship.isSome_shape?`). The label is the word for the
cardinality or lists the names that are given, and those are values of modifiers
(`Relationship.exists_label?`).
-/

namespace SchemaDiagram

open Source Text

/-! ### Fields -/

/-- The two last characters decide, so a name in any script is told by its end alone. -/
theorem endsInId_iff {name : String} :
    endsInId name = true ↔
      ∃ front i d, name.toList = front ++ [i, d] ∧ (i = 'i' ∨ i = 'I') ∧ (d = 'd' ∨ d = 'D') := by
  have hsplit (front : List Char) (i d : Char) :
      name.toList.reverse = d :: i :: front.reverse ↔ name.toList = front ++ [i, d] := by
    have hreverse : (front ++ [i, d]).reverse = d :: i :: front.reverse := by simp
    rw [← hreverse, List.reverse_inj]
  unfold endsInId
  split
  · next d i rest hreverse =>
    rw [← List.reverse_reverse rest, hsplit] at hreverse
    simp only [Bool.and_eq_true, Bool.or_eq_true, beq_iff_eq]
    refine ⟨fun h ↦ ⟨rest.reverse, i, d, hreverse, h.1, h.2⟩, ?_⟩
    rintro ⟨front, i', d', hname, hi, hd⟩
    have hlast := (List.append_inj' (hreverse.symm.trans hname) rfl).2
    simp only [List.cons.injEq, and_true] at hlast
    rw [hlast.1, hlast.2]
    exact ⟨hi, hd⟩
  · next hshort =>
    refine ⟨fun h ↦ absurd h Bool.false_ne_true, ?_⟩
    rintro ⟨front, i, d, hname, -⟩
    exact absurd ((hsplit front i d).2 hname) (hshort d i front.reverse)

theorem Field.foreignKey_iff {f : Field} :
    f.foreignKey = true ↔ f.primaryKey = false ∧
      ∃ front i d, f.name.toList = front ++ [i, d] ∧ (i = 'i' ∨ i = 'I') ∧ (d = 'd' ∨ d = 'D') := by
  rw [Field.foreignKey, Bool.and_eq_true, Bool.not_eq_true', endsInId_iff]

/-! ### Labels -/

theorem isQuote_of_mem_of_all {text : List Char} (h : text.all (fun c ↦ !isQuote c) = true) :
    ∀ c ∈ text, isQuote c = false := by
  simpa using h

/-- Names between which commas stand can stand between quotes if each of them can. -/
theorem isQuotable_intercalate {separator : List Char}
    (hseparator : ∀ c ∈ separator, isQuote c = false) {names : List (List Char)}
    (hne : names ≠ []) (h : ∀ name ∈ names, IsQuotable name) :
    IsQuotable (separator.intercalate names) := by
  induction names with
  | nil => exact absurd rfl hne
  | cons name names ih =>
    have hname := h name List.mem_cons_self
    cases names with
    | nil =>
      rw [List.intercalate_singleton]
      exact hname
    | cons next names =>
      have hrest := ih (List.cons_ne_nil next names) fun other hother ↦
        h other (List.mem_cons_of_mem name hother)
      rw [List.intercalate_cons_cons]
      refine ⟨List.append_ne_nil_of_left_ne_nil (List.append_ne_nil_of_left_ne_nil hname.ne_nil _) _,
        fun c hc ↦ ?_⟩
      rcases List.mem_append.1 hc with hc | hc
      · rcases List.mem_append.1 hc with hc | hc
        · exact hname.isQuote_of_mem c hc
        · exact hseparator c hc
      · exact hrest.isQuote_of_mem c hc

theorem Cardinality.isQuotable_word (c : Cardinality) : IsQuotable c.word.toList := by
  cases c <;> exact ⟨by decide, isQuote_of_mem_of_all (by decide)⟩

/-- The label of a relationship in which a kind is declared: a word, or names that are given. -/
theorem Relationship.exists_label? {r : Relationship} {kind : AssociationKind}
    (hkind : kind ∈ r.forward ∨ kind ∈ r.backward)
    (hnames : ∀ name ∈ r.aliases, IsQuotable name.toList) :
    ∃ label, r.label? = some label ∧ IsQuotable label.toList := by
  obtain ⟨shape, hshape⟩ := Option.isSome_iff_exists.1 (isSome_shape? hkind)
  rcases hempty : r.aliases.isEmpty with - | -
  · refine ⟨String.intercalate ", " r.aliases, by simp [label?, hempty], ?_⟩
    rw [String.toList_intercalate]
    refine isQuotable_intercalate (isQuote_of_mem_of_all (by decide)) ?_ fun name hname ↦ ?_
    · simpa using hempty
    · obtain ⟨name, hmem, rfl⟩ := List.mem_map.1 hname
      exact hnames name hmem
  · exact ⟨shape.1.word, by simp [label?, hempty, hshape], shape.1.isQuotable_word⟩

/-! ### Edges -/

section Edges

variable {associations : List Association} {p : Pair}

theorem Relationship.left_right_edge (r : Relationship) :
    r.edge.left = r.pair.low ∧ r.edge.right = r.pair.high ∨
      r.edge.left = r.pair.high ∧ r.edge.right = r.pair.low := by
  by_cases h : r.shape?.map Prod.snd = some .high
  · exact .inr ⟨if_pos h, if_pos h⟩
  · exact .inl ⟨if_neg h, if_neg h⟩

/-- What holds of the models of all declarations holds of the ends of the edges. -/
theorem left_right_of_mem_edges {P : String → Prop} (hsource : ∀ a ∈ associations, P a.source)
    (htarget : ∀ a ∈ associations, P a.target) {e : Edge} (he : e ∈ edges associations) :
    P e.left ∧ P e.right := by
  obtain ⟨p, hp, rfl⟩ := mem_edges_iff.1 he
  obtain ⟨a, ha, rfl⟩ := mem_declaredPairs_iff.1 hp
  have hpair : P a.pair.low ∧ P a.pair.high := by
    rcases Pair.low_high_of a.source a.target with ⟨hlow, hhigh⟩ | ⟨hlow, hhigh⟩
    · exact ⟨hlow ▸ hsource a ha, hhigh ▸ htarget a ha⟩
    · exact ⟨hlow ▸ htarget a ha, hhigh ▸ hsource a ha⟩
  have hends := (Relationship.gather a.pair (declaredBetween associations a.pair)).left_right_edge
  rw [Relationship.pair_gather] at hends
  rcases hends with ⟨hleft, hright⟩ | ⟨hleft, hright⟩
  · exact ⟨hleft ▸ hpair.1, hright ▸ hpair.2⟩
  · exact ⟨hleft ▸ hpair.2, hright ▸ hpair.1⟩

theorem exists_cardinality_of_mem_edges {e : Edge} (he : e ∈ edges associations) :
    ∃ c, e.cardinality = some c := by
  obtain ⟨p, hp, rfl⟩ := mem_edges_iff.1 he
  exact exists_cardinality_pairEdge hp

/-- Every edge has a label that can stand between quotes if the names that are given can. -/
theorem exists_label_of_mem_edges
    (hnames : ∀ a ∈ associations, ∀ name, a.aliasName = some name → IsQuotable name.toList)
    {e : Edge} (he : e ∈ edges associations) :
    ∃ label, e.label = some label ∧ IsQuotable label.toList := by
  obtain ⟨p, hp, rfl⟩ := mem_edges_iff.1 he
  obtain ⟨kind, hkind⟩ := exists_kind_gather hp
  refine Relationship.exists_label? hkind fun name hname ↦ ?_
  obtain ⟨a, ha, halias⟩ := Relationship.mem_aliases_gather.1 hname
  exact hnames a (List.mem_filter.1 ha).1 name halias

end Edges

/-! ### The line of an edge -/

/-- The line of an edge that has a cardinality and a label. -/
theorem Diagram.edgeLine_eq {e : Edge} {c : Cardinality} {label : String}
    (hcardinality : e.cardinality = some c) (hlabel : e.label = some label)
    (hne : label.toList ≠ []) :
    edgeLine e = e.left ++ " " ++ c.symbol ++ " " ++ e.right ++ (" : \"" ++ label ++ "\"") := by
  have hempty : label ≠ "" := fun h ↦ hne (by rw [h]; rfl)
  rw [edgeLine, hlabel, Edge.symbol, hcardinality]
  simp only [if_neg hempty, Option.map_some, Option.getD_some]

/-- Where no name and no label holds a quote, the only quotes are those around the label. -/
theorem Diagram.count_quote_edgeLine {e : Edge} {c : Cardinality} {label : String}
    (hcardinality : e.cardinality = some c) (hlabel : e.label = some label)
    (hleft : IsQuotable e.left.toList) (hright : IsQuotable e.right.toList)
    (hquotable : IsQuotable label.toList) : (edgeLine e).toList.count '"' = 2 := by
  have hcount {text : List Char} (h : IsQuotable text) : text.count '"' = 0 :=
    List.count_eq_zero.2 fun hmem ↦ absurd (h.isQuote_of_mem '"' hmem) (by decide)
  have hsymbol : c.symbol.toList.count '"' = 0 := by cases c <;> decide
  rw [edgeLine_eq hcardinality hlabel hquotable.ne_nil]
  simp [hcount hleft, hcount hright, hcount hquotable, hsymbol]

theorem Diagram.edgeLine_mem_lines (models : List Model) {edges : List Edge} {e : Edge}
    (he : e ∈ edges) : edgeLine e ∈ lines models edges := by
  have hsection : edges.map edgeLine ∈ sections models edges := by
    have hne : ¬edges.isEmpty = true := fun h ↦ List.ne_nil_of_mem he (List.isEmpty_iff.1 h)
    rw [sections, if_neg hne]
    exact List.mem_append_right _ (List.mem_singleton.2 rfl)
  have hmem : edgeLine e ∈ separated models edges :=
    List.mem_flatMap.2 ⟨_, hsection, List.mem_cons_of_mem _ (List.mem_map_of_mem he)⟩
  rw [lines_eq]
  refine List.mem_cons_of_mem _ ?_
  -- the line is not the empty one in front of all sections
  rcases separated_eq_nil_or_cons models edges with hnil | ⟨line, rest, hcons⟩
  · rw [hnil] at hmem
    exact absurd hmem List.not_mem_nil
  · rw [hcons] at hmem ⊢
    rcases List.mem_cons.1 hmem with hempty | htail
    · have htext := congrArg String.toList hempty
      rw [toList_edgeLine] at htext
      simp at htext
    · exact htail

/-- The line of an edge stands between whole lines in the text of the diagram. -/
theorem Diagram.exists_render_eq (models : List Model) {edges : List Edge} {e : Edge}
    (he : e ∈ edges) : ∃ before behind : List String,
      render models edges = String.join (before.map (· ++ "\n")) ++ (edgeLine e ++ "\n") ++
        String.join (behind.map (· ++ "\n")) := by
  obtain ⟨before, behind, hsplit⟩ := List.append_of_mem (edgeLine_mem_lines models he)
  refine ⟨before, behind, ?_⟩
  rw [render, hsplit, List.map_append, List.map_cons, String.join_append, String.join_cons,
    ← String.append_assoc]

namespace Report

/-- A report that can be drawn as it is. -/
structure IsWellFormed (r : Report) : Prop where
  /-- The models of an association are called by identifiers. -/
  isIdentifier_ends : ∀ a ∈ r.associations,
    IsIdentifier a.source.toList ∧ IsIdentifier a.target.toList
  /-- The values of modifiers are not empty and hold no quotes. -/
  isQuotable_modifier : ∀ a ∈ r.associations, ∀ key value, modifier? a key = some value →
    IsQuotable value.toList
  /-- An edge has a cardinality and a label, and its line shows both. -/
  edge : ∀ e ∈ r.edges, ∃ c label, e.cardinality = some c ∧ e.label = some label ∧
    IsQuotable label.toList ∧
    Diagram.edgeLine e =
      e.left ++ " " ++ c.symbol ++ " " ++ e.right ++ (" : \"" ++ label ++ "\"") ∧
    (Diagram.edgeLine e).toList.count '"' = 2 ∧
    ∃ before behind : List String, r.diagram =
      String.join (before.map (· ++ "\n")) ++ (Diagram.edgeLine e ++ "\n") ++
        String.join (behind.map (· ++ "\n"))
  /-- Fields are called by words. -/
  isWord_field : ∀ m ∈ r.models, ∀ f ∈ m.fields, IsWord f.name.toList
  /-- A primary key is no foreign key. -/
  not_both_keys : ∀ m ∈ r.models, ∀ f ∈ m.fields, ¬(f.primaryKey = true ∧ f.foreignKey = true)
  /-- Any other field is one exactly if its name ends in the letters `id`, in either case. -/
  foreignKey_iff : ∀ m ∈ r.models, ∀ f ∈ m.fields, f.foreignKey = true ↔ f.primaryKey = false ∧
    ∃ front i d, f.name.toList = front ++ [i, d] ∧ (i = 'i' ∨ i = 'I') ∧ (d = 'd' ∨ d = 'D')

/-- **Every report can be drawn**, whatever the texts. -/
theorem isWellFormed_ofTexts (texts : List String) : (ofTexts texts).IsWellFormed := by
  have hassociation : ∀ a ∈ (ofTexts texts).associations,
      ∃ text, a ∈ extractAssociations (stripComments text) := fun a ha ↦ by
    rw [ofTexts_eq] at ha
    obtain ⟨text, -, hmem⟩ := List.mem_flatMap.1 ha
    exact ⟨text, hmem⟩
  have hends : ∀ a ∈ (ofTexts texts).associations,
      IsIdentifier a.source.toList ∧ IsIdentifier a.target.toList := fun a ha ↦ by
    obtain ⟨text, hmem⟩ := hassociation a ha
    exact ⟨isIdentifier_source hmem, isIdentifier_target hmem⟩
  have hmodifier : ∀ a ∈ (ofTexts texts).associations, ∀ key value,
      modifier? a key = some value → IsQuotable value.toList := fun a ha key value hvalue ↦ by
    obtain ⟨text, hmem⟩ := hassociation a ha
    exact isQuotable_modifier? hmem hvalue
  refine
    { isIdentifier_ends := hends, isQuotable_modifier := hmodifier, edge := fun e he ↦ ?_,
      isWord_field := fun m hm f hf ↦ ?_, not_both_keys := fun m _ f _ ↦ ?_,
      foreignKey_iff := fun m _ f _ ↦ f.foreignKey_iff }
  · have hedge : e ∈ SchemaDiagram.edges (ofTexts texts).associations := he
    obtain ⟨c, hcardinality⟩ := exists_cardinality_of_mem_edges hedge
    obtain ⟨label, hlabel, hquotable⟩ := exists_label_of_mem_edges
      (fun a ha ↦ hmodifier a ha .aliasName) hedge
    obtain ⟨hleft, hright⟩ := left_right_of_mem_edges
      (P := fun name ↦ IsIdentifier name.toList) (fun a ha ↦ (hends a ha).1)
      (fun a ha ↦ (hends a ha).2) hedge
    exact ⟨c, label, hcardinality, hlabel, hquotable,
      Diagram.edgeLine_eq hcardinality hlabel hquotable.ne_nil,
      Diagram.count_quote_edgeLine hcardinality hlabel hleft.isWord.isQuotable
        hright.isWord.isQuotable hquotable,
      Diagram.exists_render_eq _ he⟩
  · rw [ofTexts_eq] at hm
    obtain ⟨text, -, hmodel⟩ := List.mem_filterMap.1 hm
    exact isWord_name_of_extractModel hmodel hf
  · rintro ⟨hprimary, hforeign⟩
    exact absurd (hprimary.symm.trans (f.foreignKey_iff.1 hforeign).1) (by decide)

end Report

end SchemaDiagram
