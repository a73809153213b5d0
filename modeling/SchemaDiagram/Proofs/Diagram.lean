import Mathlib.Data.List.Basic
import SchemaDiagram.Diagram
import SchemaDiagram.Proofs.Text.Token

/-!
# What the text of a diagram tells

The text of a diagram determines all that it shows (`render_injective`), although blocks, empty
lines and edges share one flat text and nearly every part of a line can be missing.

## What tells the parts apart

* A text is cut into its lines at the line feeds, because no line holds one.
* A line is cut at its first space. The line of an edge always has a second one, also where it has
  no symbol, and the line that opens a block has none (`nameLine_ne_edgeLine`); so what follows an
  empty line is known from its first line.
* A block is cut at its first closing brace, for the lines of fields are indented.
-/

namespace SchemaDiagram

open Text

/-! ### What is shown -/

/-- What a diagram shows of a field: its type tag, its name, and its three flags. -/
def Field.shown (f : Field) : String × String × Bool × Bool × Bool :=
  (f.type.tag, f.name, f.nullable, f.primaryKey, f.foreignKey)

/-- What a diagram shows of a model: its name, and its fields in order. -/
def Model.shown (m : Model) : String × List (String × String × Bool × Bool × Bool) :=
  (m.name, m.fields.map Field.shown)

/-- What a diagram shows of an edge: all of it, but for an empty label. -/
def Edge.shown (e : Edge) : Edge := { e with label := e.label.filter (· ≠ "") }

namespace Text

/-- A text without white space. -/
def IsUnbroken (text : List Char) : Prop := ∀ c ∈ text, isBlank c = false

instance (text : List Char) : Decidable (IsUnbroken text) :=
  decidable_of_iff (text.all fun c ↦ !isBlank c) (by simp [IsUnbroken])

theorem IsUnbroken.space_not_mem {text : List Char} (h : IsUnbroken text) : ' ' ∉ text :=
  fun hmem ↦ absurd (h ' ' hmem) (by decide)

theorem IsUnbroken.lineFeed_not_mem {text : List Char} (h : IsUnbroken text) : '\n' ∉ text :=
  fun hmem ↦ absurd (h '\n' hmem) (by decide)

section Cut

variable {α : Type} {c : α} {front front' rest rest' : List α}

/-- Two lists are cut at the first place of an element, which both may lack. -/
theorem append_inj_of_not_mem (hfront : c ∉ front) (hfront' : c ∉ front')
    (hrest : ∀ d ∈ rest.head?, d = c) (hrest' : ∀ d ∈ rest'.head?, d = c)
    (h : front ++ rest = front' ++ rest') : front = front' ∧ rest = rest' := by
  induction front generalizing front' with
  | nil =>
    cases front' with
    | nil => exact ⟨rfl, h⟩
    | cons d front' =>
      obtain rfl : rest = d :: (front' ++ rest') := h
      exact absurd (hrest d rfl ▸ List.mem_cons_self) hfront'
  | cons d front ih =>
    cases front' with
    | nil =>
      obtain rfl : d :: (front ++ rest) = rest' := h
      exact absurd (hrest' d rfl ▸ List.mem_cons_self) hfront
    | cons d' front' =>
      obtain ⟨rfl, htail⟩ := List.cons.inj h
      obtain ⟨rfl, hrest⟩ := ih (fun hmem ↦ hfront (List.mem_cons_of_mem d hmem))
        (fun hmem ↦ hfront' (List.mem_cons_of_mem d hmem)) htail
      exact ⟨rfl, hrest⟩

theorem append_cons_inj_of_not_mem (hfront : c ∉ front) (hfront' : c ∉ front')
    (h : front ++ c :: rest = front' ++ c :: rest') : front = front' ∧ rest = rest' := by
  obtain ⟨hfront, htail⟩ := append_inj_of_not_mem hfront hfront' (by simp) (by simp) h
  exact ⟨hfront, (List.cons.inj htail).2⟩

end Cut

/-- Lines that are ended by line feeds are told apart if they hold no others. -/
theorem eq_of_join_lines {lines others : List String} (hlines : ∀ l ∈ lines, '\n' ∉ l.toList)
    (hothers : ∀ l ∈ others, '\n' ∉ l.toList)
    (h : String.join (lines.map (· ++ "\n")) = String.join (others.map (· ++ "\n"))) :
    lines = others := by
  induction lines generalizing others with
  | nil =>
    cases others with
    | nil => rfl
    | cons line others => simpa using congrArg String.toList h
  | cons line lines ih =>
    cases others with
    | nil => simpa using congrArg String.toList h
    | cons other others =>
      have hcut : line.toList ++ '\n' :: (String.join (lines.map (· ++ "\n"))).toList =
          other.toList ++ '\n' :: (String.join (others.map (· ++ "\n"))).toList := by
        simpa [String.append_assoc] using congrArg String.toList h
      obtain ⟨hline, hrest⟩ := append_cons_inj_of_not_mem (hlines line List.mem_cons_self)
        (hothers other List.mem_cons_self) hcut
      rw [String.toList_inj.1 hline, ih (fun l hl ↦ hlines l (List.mem_cons_of_mem line hl))
        (fun l hl ↦ hothers l (List.mem_cons_of_mem other hl)) (String.toList_inj.1 hrest)]

end Text

/-- What lets the line of a field be read: its type tag has no white space in it, and its name is of
word characters. -/
structure Field.IsLegible (f : Field) : Prop where
  isUnbroken_tag : IsUnbroken f.type.tag.toList
  isWordChar_of_mem_name : ∀ c ∈ f.name.toList, isWordChar c = true

/-- What lets the line of an edge be read: its ends have no white space in them, and its label does
not go on behind the line. -/
structure Edge.IsLegible (e : Edge) : Prop where
  isUnbroken_left : IsUnbroken e.left.toList
  isUnbroken_right : IsUnbroken e.right.toList
  lineFeed_not_mem_label : ∀ label ∈ e.label, '\n' ∉ label.toList

/-- What lets the block of a model be read: its name has no white space in it, and the lines of its
fields can be read. -/
structure Model.IsLegible (m : Model) : Prop where
  isUnbroken_name : IsUnbroken m.name.toList
  isLegible_of_mem : ∀ f ∈ m.fields, f.IsLegible

instance (f : Field) : Decidable f.IsLegible :=
  decidable_of_iff (IsUnbroken f.type.tag.toList ∧ f.name.toList.all isWordChar = true)
    ⟨fun h ↦ ⟨h.1, List.all_eq_true.1 h.2⟩, fun h ↦ ⟨h.1, List.all_eq_true.2 h.2⟩⟩

instance (e : Edge) : Decidable e.IsLegible :=
  decidable_of_iff (IsUnbroken e.left.toList ∧ IsUnbroken e.right.toList ∧
      ∀ label ∈ e.label, '\n' ∉ label.toList)
    ⟨fun h ↦ ⟨h.1, h.2.1, h.2.2⟩, fun h ↦ ⟨h.1, h.2, h.3⟩⟩

instance (m : Model) : Decidable m.IsLegible :=
  decidable_of_iff (IsUnbroken m.name.toList ∧ ∀ f ∈ m.fields, f.IsLegible)
    ⟨fun h ↦ ⟨h.1, h.2⟩, fun h ↦ ⟨h.1, h.2⟩⟩

namespace Diagram

/-! ### The lines of fields -/

/-- What stands behind the name of a field. -/
def fieldMarks (nullable primaryKey foreignKey : Bool) : List Char :=
  (if nullable then "[nullable]".toList else []) ++ (if primaryKey then " PK".toList else [])
    ++ (if foreignKey then " FK".toList else [])

theorem toList_fieldLine (f : Field) :
    (fieldLine f).toList = f.type.tag.toList ++
      ' ' :: (f.name.toList ++ fieldMarks f.nullable f.primaryKey f.foreignKey) := by
  unfold fieldLine fieldMarks
  cases f.nullable <;> cases f.primaryKey <;> cases f.foreignKey <;> simp

theorem fieldMarks_inj : ∀ {n p k n' p' k' : Bool}, fieldMarks n p k = fieldMarks n' p' k' →
    n = n' ∧ p = p' ∧ k = k' := by
  decide

/-- No word goes on with a mark, and no mark holds a line feed. -/
theorem fieldMarks_separate (n p k : Bool) :
    startsWord (fieldMarks n p k) = false ∧ '\n' ∉ fieldMarks n p k := by
  revert n p k
  decide

theorem lineFeed_not_mem_fieldLine {f : Field} (h : f.IsLegible) : '\n' ∉ (fieldLine f).toList := by
  rw [toList_fieldLine, List.mem_append, List.mem_cons, List.mem_append]
  rintro (hmem | hmem | hmem | hmem)
  · exact h.isUnbroken_tag.lineFeed_not_mem hmem
  · exact absurd hmem (by decide)
  · exact absurd (h.isWordChar_of_mem_name _ hmem) (by decide)
  · exact (fieldMarks_separate _ _ _).2 hmem

/-- The tag ends at the first space, the name at the end of its word, and the marks behind the name
tell the flags. -/
theorem shown_eq_of_fieldLine (f f' : Field) (h : f.IsLegible) (h' : f'.IsLegible)
    (hline : fieldLine f = fieldLine f') : f.shown = f'.shown := by
  have htext := congrArg String.toList hline
  rw [toList_fieldLine, toList_fieldLine] at htext
  obtain ⟨htag, hrest⟩ := append_cons_inj_of_not_mem h.isUnbroken_tag.space_not_mem
    h'.isUnbroken_tag.space_not_mem htext
  have hname := eq_of_word_append h.isWordChar_of_mem_name h'.isWordChar_of_mem_name
    (fieldMarks_separate _ _ _).1 (fieldMarks_separate _ _ _).1 hrest
  rw [hname] at hrest
  obtain ⟨hnullable, hprimary, hforeign⟩ := fieldMarks_inj (List.append_cancel_left hrest)
  rw [Field.shown, Field.shown, String.toList_inj.1 htag, String.toList_inj.1 hname, hnullable,
    hprimary, hforeign]

/-! ### The lines of edges -/

/-- What stands behind the right end of an edge. -/
def labelClause : Option String → List Char
  | some label => if label = "" then [] else " : \"".toList ++ (label.toList ++ ['"'])
  | none => []

theorem toList_edgeLine (e : Edge) :
    (edgeLine e).toList = e.left.toList ++
      ' ' :: (e.symbol.toList ++ ' ' :: (e.right.toList ++ labelClause e.label)) := by
  rcases hlabel : e.label with - | label
  · simp [edgeLine, labelClause, hlabel]
  · by_cases hempty : label = "" <;> simp [edgeLine, labelClause, hlabel, hempty]

theorem head?_labelClause (label : Option String) : ∀ c ∈ (labelClause label).head?, c = ' ' := by
  rcases label with - | label
  · simp [labelClause]
  · by_cases hempty : label = "" <;> simp [labelClause, hempty]

theorem labelClause_inj {label label' : Option String} (h : labelClause label = labelClause label') :
    label.filter (· ≠ "") = label'.filter (· ≠ "") := by
  rcases label with - | label <;> rcases label' with - | label'
  · rfl
  · by_cases hempty : label' = ""
    · rw [hempty]
      rfl
    · simp [labelClause, hempty] at h
  · by_cases hempty : label = ""
    · rw [hempty]
      rfl
    · simp [labelClause, hempty] at h
  · by_cases hempty : label = "" <;> by_cases hempty' : label' = ""
    · rw [hempty, hempty']
    · simp [labelClause, hempty, hempty'] at h
    · simp [labelClause, hempty, hempty'] at h
    · simp only [labelClause, if_neg hempty, if_neg hempty'] at h
      have htext := (List.append_inj' (List.append_cancel_left h) rfl).1
      rw [String.toList_inj.1 htext]

theorem symbol_inj {e e' : Edge} (h : e.symbol.toList = e'.symbol.toList) :
    e.cardinality = e'.cardinality := by
  have hsymbol : ∀ c c' : Option Cardinality,
      ((c.map Cardinality.symbol).getD "").toList = ((c'.map Cardinality.symbol).getD "").toList →
        c = c' := by
    rintro (- | ⟨- | - | -⟩) (- | ⟨- | - | -⟩) <;> decide
  exact hsymbol _ _ h

theorem isUnbroken_symbol (e : Edge) : IsUnbroken e.symbol.toList := by
  unfold Edge.symbol
  rcases e.cardinality with - | ⟨- | - | -⟩ <;> decide

theorem lineFeed_not_mem_edgeLine {e : Edge} (h : e.IsLegible) : '\n' ∉ (edgeLine e).toList := by
  have hclause : '\n' ∉ labelClause e.label := by
    rcases hlabel : e.label with - | label
    · exact List.not_mem_nil
    · have hmem := h.lineFeed_not_mem_label label hlabel
      by_cases hempty : label = "" <;> simp [labelClause, hempty, hmem]
  simp only [toList_edgeLine, List.mem_append, List.mem_cons]
  rintro (hmem | hmem | hmem | hmem | hmem | hmem)
  · exact h.isUnbroken_left.lineFeed_not_mem hmem
  · exact absurd hmem (by decide)
  · exact (isUnbroken_symbol e).lineFeed_not_mem hmem
  · exact absurd hmem (by decide)
  · exact h.isUnbroken_right.lineFeed_not_mem hmem
  · exact hclause hmem

/-- The left end, the symbol and the right end stop at the first three spaces, of which the third
may be missing together with the label. -/
theorem shown_eq_of_edgeLine (e e' : Edge) (h : e.IsLegible) (h' : e'.IsLegible)
    (hline : edgeLine e = edgeLine e') : e.shown = e'.shown := by
  have htext := congrArg String.toList hline
  rw [toList_edgeLine, toList_edgeLine] at htext
  obtain ⟨hleft, hrest⟩ := append_cons_inj_of_not_mem h.isUnbroken_left.space_not_mem
    h'.isUnbroken_left.space_not_mem htext
  obtain ⟨hsymbol, hrest⟩ := append_cons_inj_of_not_mem (isUnbroken_symbol e).space_not_mem
    (isUnbroken_symbol e').space_not_mem hrest
  obtain ⟨hright, hclause⟩ := append_inj_of_not_mem h.isUnbroken_right.space_not_mem
    h'.isUnbroken_right.space_not_mem (head?_labelClause _) (head?_labelClause _) hrest
  simp only [Edge.shown, String.toList_inj.1 hleft, String.toList_inj.1 hright,
    symbol_inj hsymbol, labelClause_inj hclause]

/-! ### Blocks -/

/-- The line that opens the block of a model. -/
def nameLine (m : Model) : String := m.name ++ " \x7b"

theorem toList_nameLine (m : Model) : (nameLine m).toList = m.name.toList ++ ' ' :: ['{'] := by
  simp [nameLine]

theorem name_eq_of_nameLine {m m' : Model} (h : nameLine m = nameLine m') : m.name = m'.name := by
  have htext := congrArg String.toList h
  rw [toList_nameLine, toList_nameLine] at htext
  exact String.toList_inj.1 (List.append_inj' htext rfl).1

theorem lineFeed_not_mem_nameLine {m : Model} (h : m.IsLegible) : '\n' ∉ (nameLine m).toList := by
  rw [toList_nameLine, List.mem_append]
  rintro (hmem | hmem)
  · exact h.isUnbroken_name.lineFeed_not_mem hmem
  · exact absurd hmem (by decide)

/-- The line of an edge has two spaces, and the line that opens a block has one. -/
theorem nameLine_ne_edgeLine {m : Model} {e : Edge} (hm : m.IsLegible) (he : e.IsLegible) :
    nameLine m ≠ edgeLine e := by
  intro h
  have htext := congrArg String.toList h
  rw [toList_nameLine, toList_edgeLine] at htext
  obtain ⟨-, hrest⟩ := append_cons_inj_of_not_mem hm.isUnbroken_name.space_not_mem
    he.isUnbroken_left.space_not_mem htext
  have hspace : ' ' ∈ ['{'] := by simp [hrest]
  exact absurd hspace (by decide)

/-- The line of a field in its block. -/
def indentedLine (f : Field) : String := "    " ++ fieldLine f

/-- The lines of fields are indented, so none of them closes the block. -/
theorem brace_not_mem_indentedLines (fields : List Field) : "\x7d" ∉ fields.map indentedLine := by
  intro h
  obtain ⟨f, -, hline⟩ := List.mem_map.1 h
  have htext := congrArg String.toList hline
  simp [indentedLine] at htext

theorem lineFeed_not_mem_indentedLine {f : Field} (h : f.IsLegible) :
    '\n' ∉ (indentedLine f).toList := by
  rw [indentedLine, String.toList_append, List.mem_append]
  rintro (hmem | hmem)
  · exact absurd hmem (by decide)
  · exact lineFeed_not_mem_fieldLine h hmem

theorem shown_eq_of_indentedLine (f f' : Field) (h : f.IsLegible) (h' : f'.IsLegible)
    (hline : indentedLine f = indentedLine f') : f.shown = f'.shown := by
  have htext := congrArg String.toList hline
  rw [indentedLine, indentedLine, String.toList_append, String.toList_append] at htext
  exact shown_eq_of_fieldLine f f' h h' (String.toList_inj.1 (List.append_cancel_left htext))

/-! ### Blocks and edges in order -/

/-- The sections of a diagram, each with an empty line before it. -/
def separated (models : List Model) (edges : List Edge) : List String :=
  (sections models edges).flatMap fun lines ↦ "" :: lines

/-- No empty line stands before the first section. -/
theorem lines_eq (models : List Model) (edges : List Edge) :
    lines models edges = "erDiagram" :: (separated models edges).tail := by
  have hintercalate (first : List String) (others : List (List String)) :
      List.intercalate [""] (first :: others) = first ++ others.flatMap fun lines ↦ "" :: lines := by
    induction others generalizing first with
    | nil => simp
    | cons next others ih =>
      rw [List.intercalate_cons_cons, ih, List.flatMap_cons, List.append_assoc]
      rfl
  rw [lines, separated]
  cases sections models edges with
  | nil => rfl
  | cons first others => rw [hintercalate, List.flatMap_cons, List.cons_append, List.tail_cons]

theorem separated_nil (edges : List Edge) :
    separated [] edges = if edges.isEmpty then [] else "" :: edges.map edgeLine := by
  unfold separated sections
  split <;> simp

theorem separated_cons (m : Model) (models : List Model) (edges : List Edge) :
    separated (m :: models) edges =
      "" :: nameLine m :: (m.fields.map indentedLine ++ "\x7d" :: separated models edges) := by
  simp [separated, sections, modelLines, nameLine, indentedLine]

/-- No section is empty. -/
theorem separated_eq_nil_or_cons (models : List Model) (edges : List Edge) :
    separated models edges = [] ∨
      ∃ line rest, separated models edges = "" :: line :: rest := by
  cases models with
  | nil =>
    rw [separated_nil]
    cases edges with
    | nil => exact .inl rfl
    | cons e edges => exact .inr ⟨edgeLine e, edges.map edgeLine, rfl⟩
  | cons m models =>
    rw [separated_cons]
    exact .inr ⟨_, _, rfl⟩

/-- Two lists that one view tells apart, another view tells apart as well. -/
theorem map_eq_map_of_map_eq_map {α β γ : Type} {P : α → Prop} {f : α → β} {g : α → γ}
    (hview : ∀ a b, P a → P b → f a = f b → g a = g b) {xs ys : List α} (hxs : ∀ x ∈ xs, P x)
    (hys : ∀ y ∈ ys, P y) (h : xs.map f = ys.map f) : xs.map g = ys.map g := by
  induction xs generalizing ys with
  | nil => rw [List.map_eq_nil_iff.1 h.symm]
  | cons x xs ih =>
    cases ys with
    | nil => exact absurd h (List.cons_ne_nil _ _)
    | cons y ys =>
      obtain ⟨hhead, htail⟩ := List.cons.inj h
      rw [List.map_cons, List.map_cons,
        hview x y (hxs x List.mem_cons_self) (hys y List.mem_cons_self) hhead,
        ih (fun z hz ↦ hxs z (List.mem_cons_of_mem x hz))
          (fun z hz ↦ hys z (List.mem_cons_of_mem y hz)) htail]

section Sections

variable {models models' : List Model} {edges edges' : List Edge}

theorem lineFeed_not_mem_separated (hmodels : ∀ m ∈ models, m.IsLegible)
    (hedges : ∀ e ∈ edges, e.IsLegible) : ∀ line ∈ separated models edges, '\n' ∉ line.toList := by
  induction models with
  | nil =>
    rw [separated_nil]
    split
    · exact fun _ hline ↦ absurd hline List.not_mem_nil
    · intro line hline
      rcases List.mem_cons.1 hline with rfl | hline
      · decide
      · obtain ⟨e, he, rfl⟩ := List.mem_map.1 hline
        exact lineFeed_not_mem_edgeLine (hedges e he)
  | cons m models ih =>
    have hm := hmodels m List.mem_cons_self
    intro line hline
    rw [separated_cons, List.mem_cons, List.mem_cons, List.mem_append, List.mem_cons,
      List.mem_map] at hline
    rcases hline with rfl | rfl | ⟨f, hf, rfl⟩ | rfl | hline
    · decide
    · exact lineFeed_not_mem_nameLine hm
    · exact lineFeed_not_mem_indentedLine (hm.isLegible_of_mem f hf)
    · decide
    · exact ih (fun m' hm' ↦ hmodels m' (List.mem_cons_of_mem m hm')) line hline

/-- Blocks and edges do not look the same from their first line on. -/
theorem separated_nil_ne_cons {m : Model} (hm : m.IsLegible) (hedges : ∀ e ∈ edges, e.IsLegible) :
    separated [] edges ≠ separated (m :: models) edges' := by
  rw [separated_nil, separated_cons]
  cases edges with
  | nil => exact (List.cons_ne_nil _ _).symm
  | cons e edges =>
    intro h
    have hline := (List.cons.inj (List.cons.inj h).2).1
    exact nameLine_ne_edgeLine hm (hedges e List.mem_cons_self) hline.symm

/-- **The lines tell the blocks and the edges**, one block after the other. -/
theorem shown_eq_of_separated (hmodels : ∀ m ∈ models, m.IsLegible)
    (hmodels' : ∀ m ∈ models', m.IsLegible) (hedges : ∀ e ∈ edges, e.IsLegible)
    (hedges' : ∀ e ∈ edges', e.IsLegible) (h : separated models edges = separated models' edges') :
    models.map Model.shown = models'.map Model.shown ∧
      edges.map Edge.shown = edges'.map Edge.shown := by
  induction models generalizing models' with
  | nil =>
    cases models' with
    | nil =>
      refine ⟨rfl, map_eq_map_of_map_eq_map shown_eq_of_edgeLine hedges hedges' ?_⟩
      rw [separated_nil, separated_nil] at h
      cases edges <;> cases edges' <;> simp_all
    | cons m' models' =>
      exact absurd h (separated_nil_ne_cons (hmodels' m' List.mem_cons_self) hedges)
  | cons m models ih =>
    cases models' with
    | nil => exact absurd h.symm (separated_nil_ne_cons (hmodels m List.mem_cons_self) hedges')
    | cons m' models' =>
      rw [separated_cons, separated_cons] at h
      obtain ⟨hname, hblock⟩ := List.cons.inj (List.cons.inj h).2
      obtain ⟨hfields, hrest⟩ := append_cons_inj_of_not_mem (brace_not_mem_indentedLines m.fields)
        (brace_not_mem_indentedLines m'.fields) hblock
      have hshown := map_eq_map_of_map_eq_map shown_eq_of_indentedLine
        (hmodels m List.mem_cons_self).isLegible_of_mem
        (hmodels' m' List.mem_cons_self).isLegible_of_mem hfields
      obtain ⟨hothers, hedge⟩ := ih (fun x hx ↦ hmodels x (List.mem_cons_of_mem m hx))
        (fun x hx ↦ hmodels' x (List.mem_cons_of_mem m' hx)) hrest
      refine ⟨?_, hedge⟩
      rw [List.map_cons, List.map_cons, hothers, Model.shown, Model.shown, hshown,
        name_eq_of_nameLine hname]

theorem lineFeed_not_mem_lines (hmodels : ∀ m ∈ models, m.IsLegible)
    (hedges : ∀ e ∈ edges, e.IsLegible) : ∀ line ∈ lines models edges, '\n' ∉ line.toList := by
  intro line hline
  rw [lines_eq] at hline
  rcases List.mem_cons.1 hline with rfl | hline
  · decide
  · exact lineFeed_not_mem_separated hmodels hedges line (List.mem_of_mem_tail hline)

theorem separated_eq_of_lines (h : lines models edges = lines models' edges') :
    separated models edges = separated models' edges' := by
  rw [lines_eq, lines_eq, List.cons.injEq] at h
  rcases separated_eq_nil_or_cons models edges with hnil | ⟨line, rest, hcons⟩ <;>
    rcases separated_eq_nil_or_cons models' edges' with hnil' | ⟨line', rest', hcons'⟩
  · rw [hnil, hnil']
  · simp [hnil, hcons'] at h
  · simp [hcons, hnil'] at h
  · rw [hcons, hcons', List.tail_cons, List.tail_cons] at h
    rw [hcons, hcons', h.2]

/-- **The text of a diagram determines its content.** Two diagrams with the same text show the same
models with the same fields, and the same edges, all in the same order. -/
theorem render_injective (hmodels : ∀ m ∈ models, m.IsLegible)
    (hmodels' : ∀ m ∈ models', m.IsLegible) (hedges : ∀ e ∈ edges, e.IsLegible)
    (hedges' : ∀ e ∈ edges', e.IsLegible) (h : render models edges = render models' edges') :
    models.map Model.shown = models'.map Model.shown ∧
      edges.map Edge.shown = edges'.map Edge.shown := by
  have hlines : lines models edges = lines models' edges' :=
    eq_of_join_lines (lineFeed_not_mem_lines hmodels hedges)
      (lineFeed_not_mem_lines hmodels' hedges') h
  exact shown_eq_of_separated hmodels hmodels' hedges hedges' (separated_eq_of_lines hlines)

end Sections

/-- Users, whose identifier is their primary key. -/
def userModel : Model where
  name := "User"
  fields := [{ name := "id", type := .scalar "UUID", primaryKey := true },
    { name := "teamId", type := .array (some "UUID"), nullable := true }]

/-- An unclassified edge between users and badges. -/
def badgeEdge (label : Option String) : Edge where
  left := "User"
  right := "Badge"
  cardinality := none
  label := label

/-- Without a label and with an empty one an edge is drawn, and told, the same way. -/
theorem render_injective_badgeEdge :
    (∀ m ∈ [userModel, ⟨"Badge", []⟩], m.IsLegible) ∧ (badgeEdge none).IsLegible ∧
      (badgeEdge (some "")).IsLegible ∧
      render [userModel, ⟨"Badge", []⟩] [badgeEdge none] =
        render [userModel, ⟨"Badge", []⟩] [badgeEdge (some "")] ∧
      [userModel, ⟨"Badge", []⟩].map Model.shown = [userModel, ⟨"Badge", []⟩].map Model.shown ∧
      [badgeEdge none].map Edge.shown = [badgeEdge (some "")].map Edge.shown := by
  have hmodels : ∀ m ∈ [userModel, ⟨"Badge", []⟩], m.IsLegible := by decide +kernel
  have hedge : (badgeEdge none).IsLegible := by decide +kernel
  have hedge' : (badgeEdge (some "")).IsLegible := by decide +kernel
  have htext : render [userModel, ⟨"Badge", []⟩] [badgeEdge none] =
      render [userModel, ⟨"Badge", []⟩] [badgeEdge (some "")] := by decide +kernel
  exact ⟨hmodels, hedge, hedge', htext, render_injective hmodels hmodels
    (List.forall_mem_singleton.2 hedge) (List.forall_mem_singleton.2 hedge') htext⟩

end Diagram

end SchemaDiagram
