import SchemaDiagram.Proofs.Text.Token
import SchemaDiagram.Text.Nesting

/-!
# Balanced texts

A text is balanced when the walk over it never closes a bracket that it did not open, and ends
where it started: with no bracket open and outside string literals. Balanced texts can be put
behind one another and between brackets, and the walk comes out of them in the state in which it
went in.

## What the splitter rests on

* The walk from a greater depth is the walk from the start, shifted (`Balanced.visits_raise`): a
  balanced text never looks below the depth at which it starts. So a comma inside brackets is met
  at a positive depth, whatever surrounds the brackets.
* A part without commas at its own depth goes through the splitter in one piece
  (`split_append`), so parts that are joined by commas come back one by one
  (`splitTopLevel_intercalate`).
-/

namespace SchemaDiagram.Text

namespace Nesting

/-! ### The states along a walk -/

/-- The characters of a text, each with the state in which the walk meets it. -/
def visits (n : Nesting) : List Char → List (Nesting × Char)
  | [] => []
  | c :: rest => (n, c) :: visits (n.step c) rest

theorem visits_append (n : Nesting) (first second : List Char) :
    visits n (first ++ second) = visits n first ++ visits (walk n first) second := by
  induction first generalizing n with
  | nil => rfl
  | cons c first ih => exact congrArg ((n, c) :: ·) (ih (n.step c))

theorem walk_cons (n : Nesting) (c : Char) (rest : List Char) :
    walk n (c :: rest) = walk (n.step c) rest :=
  rfl

theorem walk_append (n : Nesting) (first second : List Char) :
    walk n (first ++ second) = walk (walk n first) second :=
  List.foldl_append

/-- The same place of a text under `k` more open brackets. -/
def raise (k : Nat) (n : Nesting) : Nesting := { n with depth := n.depth + k }

/-- A character that is neither a quote nor a bracket leaves the walk where it is. -/
theorem step_of_plain {n : Nesting} {c : Char} (hn : n.quote = none) (hquote : isQuote c = false)
    (hopen : isOpening c = false) (hclose : isClosing c = false) : n.step c = n := by
  simp [step, hn, hquote, hopen, hclose]

/-- A comma separates parts exactly where no string literal and no bracket is open. -/
theorem surfacesAt_comma (n : Nesting) :
    n.surfacesAt ',' = true ↔ n.quote = none ∧ n.depth = 0 := by
  rcases hn : n.quote with - | q
  · have hstep : n.step ',' = n := step_of_plain hn (by decide) (by decide) (by decide)
    simp [surfacesAt, isOutside, hn, hstep, show isQuote ',' = false by decide]
  · simp [surfacesAt, isOutside, hn]

/-- A step goes the same way under more open brackets, unless it closes one of those. -/
theorem step_raise (k : Nat) {n : Nesting} {c : Char}
    (h : n.isOutside c = true → isClosing c = true → 0 < n.depth) :
    (n.raise k).step c = (n.step c).raise k := by
  rcases hn : n.quote with - | q
  · by_cases hquote : isQuote c = true
    · simp [step, raise, hn, hquote]
    · by_cases hopen : isOpening c = true
      · simp only [step, raise, hn, hquote, hopen, if_true, Bool.false_eq_true, if_false]
        congr 1
        omega
      · by_cases hclose : isClosing c = true
        · have hpos := h (by simp [isOutside, hn, hquote]) hclose
          simp only [step, raise, hn, hquote, hopen, hclose, if_true, Bool.false_eq_true, if_false]
          congr 1
          omega
        · simp [step, raise, hn, hquote, hopen, hclose]
  · -- inside a string literal a step does not look at the depth
    simp only [step, raise, hn]
    split
    · rfl
    · split
      · rfl
      · split <;> simp [hn]

/-- No bracket is closed that was not opened since the walk started. -/
def ClosesOnlyOpened (n : Nesting) (text : List Char) : Prop :=
  ∀ v ∈ visits n text, v.1.isOutside v.2 = true → isClosing v.2 = true → 0 < v.1.depth

/-- Every comma that the walk meets outside string literals stands inside brackets. -/
def CommaFree (n : Nesting) (text : List Char) : Prop :=
  ∀ v ∈ visits n text, v.2 = ',' → v.1.quote = none → 0 < v.1.depth

/-- **The walk does not look below its start**: under `k` more open brackets it is the same walk,
`k` brackets deeper. -/
theorem visits_raise (k : Nat) {n : Nesting} {text : List Char} (h : ClosesOnlyOpened n text) :
    visits (n.raise k) text = (visits n text).map (fun v ↦ (v.1.raise k, v.2)) ∧
      walk (n.raise k) text = (walk n text).raise k := by
  induction text generalizing n with
  | nil => exact ⟨rfl, rfl⟩
  | cons c text ih =>
    have hstep : (n.raise k).step c = (n.step c).raise k :=
      step_raise k (h (n, c) List.mem_cons_self)
    have htext : ClosesOnlyOpened (n.step c) text := fun v hv ↦ h v (List.mem_cons_of_mem _ hv)
    obtain ⟨hvisits, hwalk⟩ := ih htext
    constructor
    · rw [visits, hstep, hvisits]
      rfl
    · rw [walk_cons, hstep, hwalk]
      rfl

/-- Only a string literal has escapes, so outside literals nothing is escaped. -/
theorem escaped_step {n : Nesting} (h : n.quote = none → n.escaped = false) (c : Char) :
    (n.step c).quote = none → (n.step c).escaped = false := by
  grind [step]

theorem escaped_walk {n : Nesting} (h : n.quote = none → n.escaped = false) (text : List Char) :
    (walk n text).quote = none → (walk n text).escaped = false := by
  induction text generalizing n with
  | nil => exact h
  | cons c text ih => exact ih (escaped_step h c)

end Nesting

open Nesting

/-! ### Balanced texts -/

/-- A text whose brackets pair up and whose string literals are closed. -/
structure Balanced (text : List Char) : Prop where
  /-- Never are more brackets closed than were opened. -/
  closes : ClosesOnlyOpened {} text
  /-- In the end no bracket is open. -/
  depth_walk : (walk {} text).depth = 0
  /-- In the end no string literal is open. -/
  quote_walk : (walk {} text).quote = none

/-- What can stand between two commas that separate parts. -/
structure IsPart (text : List Char) : Prop where
  /-- The brackets pair up and the string literals are closed. -/
  balanced : Balanced text
  /-- No comma stands outside the brackets and string literals. -/
  commaFree : CommaFree {} text

namespace Balanced

/-- The walk leaves a balanced text as it entered it. -/
theorem walk_eq {text : List Char} (h : Balanced text) : walk {} text = {} := by
  have hescaped := escaped_walk (n := {}) (fun _ ↦ rfl) text h.quote_walk
  rcases hw : walk {} text with ⟨depth, quote, escaped⟩
  have hdepth := h.depth_walk
  have hquote := h.quote_walk
  rw [hw] at hescaped hdepth hquote
  simp only at hescaped hdepth hquote
  rw [hescaped, hdepth, hquote]

theorem nil : Balanced [] := ⟨by simp [ClosesOnlyOpened, visits], rfl, rfl⟩

theorem append {first second : List Char} (h₁ : Balanced first) (h₂ : Balanced second) :
    Balanced (first ++ second) := by
  have hwalk : walk {} (first ++ second) = walk {} second := by rw [walk_append, h₁.walk_eq]
  refine ⟨fun v hv ↦ ?_, by rw [hwalk, h₂.depth_walk], by rw [hwalk, h₂.quote_walk]⟩
  rw [visits_append, h₁.walk_eq] at hv
  rcases List.mem_append.1 hv with hv | hv
  · exact h₁.closes v hv
  · exact h₂.closes v hv

/-- What is met inside braces around a balanced text is met one bracket deeper. -/
theorem visits_braces {text : List Char} (h : Balanced text) :
    visits {} ('{' :: text ++ ['}']) =
      ({}, '{') :: ((visits {} text).map fun v ↦ (v.1.raise 1, v.2)) ++ [(raise 1 {}, '}')] := by
  have hopen : step {} '{' = raise 1 {} := rfl
  obtain ⟨hvisits, hwalk⟩ := visits_raise 1 h.closes
  rw [List.cons_append, visits, hopen, visits_append, hvisits, hwalk, h.walk_eq]
  rfl

theorem braces {text : List Char} (h : Balanced text) : Balanced ('{' :: text ++ ['}']) := by
  have hopen : step {} '{' = raise 1 {} := rfl
  have hwalk : walk {} ('{' :: text ++ ['}']) = {} := by
    rw [List.cons_append, walk_cons, hopen, walk_append, (visits_raise 1 h.closes).2, h.walk_eq]
    rfl
  refine ⟨fun v hv houtside hclosing ↦ ?_, by rw [hwalk], by rw [hwalk]⟩
  rw [h.visits_braces] at hv
  simp only [List.cons_append, List.mem_cons, List.mem_append, List.mem_map, List.not_mem_nil,
    or_false] at hv
  rcases hv with rfl | ⟨v, -, rfl⟩ | rfl
  · exact absurd hclosing (by decide)
  · exact Nat.succ_pos _
  · exact Nat.one_pos

end Balanced

/-! ### Parts -/

namespace IsPart

theorem nil : IsPart [] := ⟨Balanced.nil, by simp [CommaFree, visits]⟩

theorem append {first second : List Char} (h₁ : IsPart first) (h₂ : IsPart second) :
    IsPart (first ++ second) := by
  refine ⟨h₁.balanced.append h₂.balanced, fun v hv ↦ ?_⟩
  rw [visits_append, h₁.balanced.walk_eq] at hv
  rcases List.mem_append.1 hv with hv | hv
  · exact h₁.commaFree v hv
  · exact h₂.commaFree v hv

/-- A character that is no quote, bracket or comma. -/
theorem singleton {c : Char} (hquote : isQuote c = false) (hopen : isOpening c = false)
    (hclose : isClosing c = false) (hcomma : c ≠ ',') : IsPart [c] := by
  have hstep : step {} c = {} := step_of_plain rfl hquote hopen hclose
  have hwalk : walk {} [c] = {} := hstep
  refine ⟨⟨fun v hv _ hclosing ↦ ?_, by rw [hwalk], by rw [hwalk]⟩, fun v hv heq ↦ ?_⟩
  · obtain rfl := List.mem_singleton.1 hv
    exact absurd hclosing (by simp [hclose])
  · obtain rfl := List.mem_singleton.1 hv
    exact absurd heq hcomma

theorem of_plain {text : List Char}
    (h : ∀ c ∈ text, isQuote c = false ∧ isOpening c = false ∧ isClosing c = false ∧ c ≠ ',') :
    IsPart text := by
  induction text with
  | nil => exact nil
  | cons c text ih =>
    obtain ⟨hquote, hopen, hclose, hcomma⟩ := h c List.mem_cons_self
    exact (singleton hquote hopen hclose hcomma).append
      (ih fun d hd ↦ h d (List.mem_cons_of_mem c hd))

/-- Whatever stands in braces separates nothing outside them. -/
theorem braces {text : List Char} (h : Balanced text) : IsPart ('{' :: text ++ ['}']) := by
  refine ⟨h.braces, fun v hv hcomma _ ↦ ?_⟩
  rw [h.visits_braces] at hv
  simp only [List.cons_append, List.mem_cons, List.mem_append, List.mem_map, List.not_mem_nil,
    or_false] at hv
  rcases hv with rfl | ⟨v, -, rfl⟩ | rfl
  · exact absurd hcomma (by decide)
  · exact Nat.succ_pos _
  · exact Nat.one_pos

end IsPart

theorem isPart_gap (g : Gap) : IsPart g.text := by
  refine IsPart.of_plain fun c hc ↦ ?_
  have hblank := g.isBlank_of_mem c hc
  have hne : ∀ d, isBlank d = false → c ≠ d := by
    rintro d hd rfl
    exact Bool.false_ne_true (hd.symm.trans hblank)
  refine ⟨isQuote_of_isBlank hblank, ?_, ?_, hne ',' (by decide)⟩
  · simp [isOpening, hne '{' (by decide), hne '[' (by decide), hne '(' (by decide)]
  · simp [isClosing, hne '}' (by decide), hne ']' (by decide), hne ')' (by decide)]

theorem isPart_word {word : List Char} (h : ∀ c ∈ word, isWordChar c = true) : IsPart word := by
  refine IsPart.of_plain fun c hc ↦ ?_
  have hword := h c hc
  have hne : ∀ d, isWordChar d = false → c ≠ d := by
    rintro d hd rfl
    exact Bool.false_ne_true (hd.symm.trans hword)
  refine ⟨isQuote_of_isWordChar hword, ?_, ?_, hne ',' (by decide)⟩
  · simp [isOpening, hne '{' (by decide), hne '[' (by decide), hne '(' (by decide)]
  · simp [isClosing, hne '}' (by decide), hne ']' (by decide), hne ')' (by decide)]

/-- The walk stays inside a string literal over all that neither closes it nor escapes. -/
theorem visits_literal {quote : Char} {body : List Char}
    (h : ∀ c ∈ body, c ≠ quote ∧ c ≠ '\\') :
    visits { quote := some quote } body = body.map (({ quote := some quote }, ·)) ∧
      walk { quote := some quote } body = { quote := some quote } := by
  induction body with
  | nil => exact ⟨rfl, rfl⟩
  | cons c body ih =>
    obtain ⟨hquote, hescape⟩ := h c List.mem_cons_self
    have hstep : step { quote := some quote } c = { quote := some quote } := by
      simp [step, hquote, hescape]
    obtain ⟨hvisits, hwalk⟩ := ih fun d hd ↦ h d (List.mem_cons_of_mem c hd)
    exact ⟨by rw [visits, hstep, hvisits, List.map_cons], by rw [walk_cons, hstep, hwalk]⟩

/-- A string literal without escapes separates nothing, whatever its characters are. -/
theorem isPart_literal {quote : Char} {body : List Char} (hquote : isQuote quote = true)
    (h : ∀ c ∈ body, c ≠ quote ∧ c ≠ '\\') : IsPart (quote :: body ++ [quote]) := by
  have hopen : step {} quote = { quote := some quote } := by simp [step, hquote]
  have hescape : quote ≠ '\\' := by
    rintro rfl
    exact absurd hquote (by decide)
  have hclose : step { quote := some quote } quote = {} := by simp [step, hescape]
  obtain ⟨hvisits, hwalk⟩ := visits_literal h
  have hall : visits {} (quote :: body ++ [quote]) =
      (({} : Nesting), quote) :: body.map (({ quote := some quote }, ·)) ++
        [({ quote := some quote }, quote)] := by
    rw [List.cons_append, visits, hopen, visits_append, hvisits, hwalk]
    rfl
  have hend : walk {} (quote :: body ++ [quote]) = {} := by
    rw [List.cons_append, walk_cons, hopen, walk_append, hwalk, walk_cons, hclose]
    rfl
  -- the opening quote is a quote, and everything behind it is inside the literal
  have hinside : ∀ v ∈ visits {} (quote :: body ++ [quote]),
      v = (({} : Nesting), quote) ∨ v.1.quote = some quote := by
    intro v hv
    rw [hall] at hv
    simp only [List.cons_append, List.mem_cons, List.mem_append, List.mem_map, List.not_mem_nil,
      or_false] at hv
    rcases hv with rfl | ⟨c, -, rfl⟩ | rfl
    · exact .inl rfl
    · exact .inr rfl
    · exact .inr rfl
  refine ⟨⟨fun v hv houtside _ ↦ ?_, by rw [hend], by rw [hend]⟩, fun v hv hcomma hnone ↦ ?_⟩
  · rcases hinside v hv with rfl | hv
    · exact absurd houtside (by simp [isOutside, hquote])
    · exact absurd houtside (by simp [isOutside, hv])
  · rcases hinside v hv with rfl | hv
    · exact absurd hquote (by rw [show quote = ',' from hcomma]; decide)
    · exact absurd hnone (by simp [hv])

/-! ### Parts between commas -/

namespace Nesting

/-- A character of a part does not separate it. -/
theorem not_separates {n : Nesting} {c : Char} (h : c = ',' → n.quote = none → 0 < n.depth) :
    ¬(c = ',' ∧ n.surfacesAt c = true) := by
  rintro ⟨rfl, hsurfaces⟩
  obtain ⟨hquote, hdepth⟩ := (surfacesAt_comma n).1 hsurfaces
  exact absurd (h rfl hquote) (by omega)

theorem split_ne_nil (n : Nesting) (text : List Char) : split n text ≠ [] := by
  fun_cases split n text <;> simp

/-- A character that separates nothing is the first one of the part behind it. -/
theorem split_cons_of_not {n : Nesting} {c : Char} (h : ¬(c = ',' ∧ n.surfacesAt c = true))
    (rest : List Char) : n.split (c :: rest) = ((n.step c).split rest).modifyHead (c :: ·) := by
  rw [split, if_neg h]
  cases hsplit : (n.step c).split rest with
  | nil => exact absurd hsplit (split_ne_nil _ rest)
  | cons first others => rfl

/-- A text without separating commas is one part. -/
theorem split_eq_singleton {n : Nesting} {text : List Char} (h : CommaFree n text) :
    split n text = [text] := by
  induction text generalizing n with
  | nil => rfl
  | cons c text ih =>
    have hsplit := ih fun v hv ↦ h v (List.mem_cons_of_mem _ hv)
    rw [split, if_neg (not_separates (h (n, c) List.mem_cons_self)), hsplit]

/-- **A part goes through the splitter in one piece** and ends at the first comma behind it. -/
theorem split_append {n : Nesting} {text : List Char} (h : CommaFree n text)
    (hsurfaces : (walk n text).surfacesAt ',' = true) (rest : List Char) :
    split n (text ++ ',' :: rest) = text :: split ((walk n text).step ',') rest := by
  induction text generalizing n with
  | nil => exact if_pos ⟨rfl, hsurfaces⟩
  | cons c text ih =>
    have hsplit := ih (fun v hv ↦ h v (List.mem_cons_of_mem _ hv)) hsurfaces
    rw [List.cons_append, split, if_neg (not_separates (h (n, c) List.mem_cons_self)), hsplit,
      walk_cons]

end Nesting

theorem split_intercalate {parts : List (List Char)} (hne : parts ≠ [])
    (h : ∀ part ∈ parts, IsPart part) :
    Nesting.split {} (List.intercalate [','] parts) = parts := by
  induction parts with
  | nil => exact absurd rfl hne
  | cons part parts ih =>
    have hpart := h part List.mem_cons_self
    cases parts with
    | nil =>
      rw [List.intercalate_singleton]
      exact split_eq_singleton hpart.commaFree
    | cons next parts =>
      have hwalk := hpart.balanced.walk_eq
      rw [List.intercalate_cons_cons, List.append_assoc, List.singleton_append,
        split_append hpart.commaFree (by rw [hwalk]; rfl), hwalk]
      exact congrArg (part :: ·)
        (ih (List.cons_ne_nil _ _) fun p hp ↦ h p (List.mem_cons_of_mem part hp))

/-- **Splitting undoes joining by commas**: what comes back are the trimmed parts, those with
nothing in them left out. -/
theorem splitTopLevel_intercalate {parts : List (List Char)} (h : ∀ part ∈ parts, IsPart part) :
    splitTopLevel (List.intercalate [','] parts) =
      (parts.map trim).filter fun part ↦ !part.isEmpty := by
  by_cases hne : parts = []
  · subst hne
    rfl
  · rw [splitTopLevel, split_intercalate hne h]

/-! ### Blocks -/

/-- A text that closes its brackets at its last character and nowhere before: up to the last
character, the walk never stands outside string literals with no bracket open. -/
def IsBlock (text : List Char) : Prop :=
  ∃ body last, text = body ++ [last] ∧
    (∀ v ∈ visits {} body, v.1.surfacesAt v.2 = false) ∧ (walk {} body).surfacesAt last = true

namespace Nesting

/-- A block is a front part of the text. -/
theorem eq_append_of_takeBlock {n : Nesting} {text block after : List Char}
    (h : n.takeBlock text = some (block, after)) : text = block ++ after := by
  fun_induction takeBlock n text generalizing block after with
  | case1 => cases h
  | case2 =>
    cases h
    rfl
  | case3 n c rest _ ih =>
    obtain ⟨⟨front, behind⟩, hfront, heq⟩ := Option.map_eq_some_iff.1 h
    cases heq
    rw [List.cons_append, ← ih hfront]

theorem takeBlock_append {n : Nesting} {body : List Char} {last : Char}
    (hbody : ∀ v ∈ visits n body, v.1.surfacesAt v.2 = false)
    (hlast : (walk n body).surfacesAt last = true) (rest : List Char) :
    takeBlock n (body ++ last :: rest) = some (body ++ [last], rest) := by
  induction body generalizing n with
  | nil => exact if_pos hlast
  | cons c body ih =>
    have hhere : n.surfacesAt c = false := hbody (n, c) List.mem_cons_self
    have hrest := ih (fun v hv ↦ hbody v (List.mem_cons_of_mem _ hv)) hlast
    rw [List.cons_append, takeBlock, hhere, hrest]
    rfl

end Nesting

/-- **A block ends where its brackets are closed**, whatever follows it. -/
theorem block?_append {text : List Char} (h : IsBlock text) (rest : List Char) :
    block? (text ++ rest) = some (text, rest) := by
  obtain ⟨body, last, rfl, hbody, hlast⟩ := h
  rw [List.append_assoc, List.singleton_append, block?, takeBlock_append hbody hlast]

end SchemaDiagram.Text
