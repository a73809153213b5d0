import SchemaDiagram.Proofs.Text.Comment
import SchemaDiagram.Proofs.Text.Nesting

/-!
# String literals in the cut and in the walk

String literals are recognised twice: the cut of a text takes each of them whole, while the walk
goes over it one character after the other. Where every quote outside comments opens a literal that
is closed, the two agree (`marks_stripComments`): on the text without its comments, the walk is
inside a literal over just those characters that the cut takes for one.

## What the agreement rests on

* What the cut takes for the body of a literal is what the walk needs to stay in it
  (`literalBody_of_splitLiteral`): a backslash hides the next character from both, also a quote.
* The walk comes to the end of each segment outside literals, at whatever depth it entered
  (`Segment.IsComplete.marks_text`). So it does not matter what stood between two segments, and
  comments can be cut out.
-/

namespace SchemaDiagram.Text

open Nesting

/-! ### The literals of the cut -/

/-- What the cut takes for the body of a literal can stand between two quotes. -/
theorem literalBody_of_splitLiteral {quote : Char} {text body after : List Char}
    (h : splitLiteral quote text = some (body, after)) : LiteralBody quote body := by
  fun_induction splitLiteral quote text generalizing body after with
  | case1 => simp at h
  | case2 c rest ih =>
    obtain ⟨⟨b, a⟩, hb, heq⟩ := Option.map_eq_some_iff.1 h
    cases heq
    exact .escape c (ih hb)
  | case3 rest _ =>
    cases h
    exact .nil
  | case4 => simp at h
  | case5 c rest _ hquote hgo ih =>
    obtain ⟨⟨b, a⟩, hb, heq⟩ := Option.map_eq_some_iff.1 h
    cases heq
    obtain ⟨hescape, hfeed⟩ := not_or.1 hgo
    exact .char hquote hescape (fun hbreak ↦ not_not.1 (not_and.1 hfeed hbreak)) (ih hb)

namespace Segment

/-- Whether the segment is a string literal. -/
def isLiteral : Segment → Bool
  | literal _ _ => true
  | plain _ | lineComment _ | blockComment _ => false

/-- Whether the segment is a quote that opens no literal. -/
def isLoneQuote : Segment → Bool
  | plain c => isQuote c
  | literal _ _ | lineComment _ | blockComment _ => false

/-- The characters of a segment, each with whether it stands outside string literals; the quotes of
a literal belong to it. -/
def marks (s : Segment) : List (Char × Bool) := s.text.map (·, !s.isLiteral)

/-- A segment that is no comment and after which no literal is open. -/
def IsComplete : Segment → Prop
  | plain c => isQuote c = false
  | literal quote body => isQuote quote = true ∧ LiteralBody quote body
  | lineComment _ | blockComment _ => False

end Segment

/-- Every quote outside comments opens a string literal that is closed. -/
def ClosesLiterals (text : List Char) : Prop := ∀ s ∈ segments text, s.isLoneQuote = false

instance (text : List Char) : Decidable (ClosesLiterals text) :=
  inferInstanceAs (Decidable (∀ s ∈ segments text, s.isLoneQuote = false))

/-- A literal is cut off behind its opening quote only. -/
theorem of_nextSegment_eq_literal {c quote : Char} {rest body : List Char}
    (h : (nextSegment c rest).1 = .literal quote body) :
    isQuote quote = true ∧ LiteralBody quote body := by
  unfold nextSegment at h
  split at h
  · next hquote =>
    split at h
    · next hbody =>
      cases h
      exact ⟨hquote, literalBody_of_splitLiteral hbody⟩
    · cases h
  · split at h
    · split at h
      · cases h
      · split at h <;> cases h
      · cases h
    · cases h

/-- The literals of a cut are closed where the cut says. -/
theorem of_literal_mem_segments {text body : List Char} {quote : Char}
    (h : .literal quote body ∈ segments text) : isQuote quote = true ∧ LiteralBody quote body := by
  fun_induction segments text with
  | case1 => cases h
  | case2 c rest ih =>
    rcases List.mem_cons.1 h with h | h
    · exact of_nextSegment_eq_literal h.symm
    · exact ih h

/-- All that is kept of a text that closes its literals can be walked over. -/
theorem ClosesLiterals.isComplete {text : List Char} (h : ClosesLiterals text) {s : Segment}
    (hs : s ∈ segments text) (hcomment : s.isComment = false) : s.IsComplete := by
  cases s with
  | plain c => exact h (.plain c) hs
  | literal quote body => exact of_literal_mem_segments hs
  | lineComment body => cases hcomment
  | blockComment body => cases hcomment

/-! ### The literals of the walk -/

namespace Nesting

/-- The characters of a text, each with whether the walk meets it outside string literals. -/
def marks (n : Nesting) (text : List Char) : List (Char × Bool) :=
  (visits n text).map fun v ↦ (v.2, v.1.isOutside v.2)

theorem marks_cons (n : Nesting) (c : Char) (rest : List Char) :
    n.marks (c :: rest) = (c, n.isOutside c) :: (n.step c).marks rest :=
  rfl

theorem marks_append (n : Nesting) (first second : List Char) :
    n.marks (first ++ second) = n.marks first ++ (walk n first).marks second := by
  rw [marks, visits_append, List.map_append]
  rfl

/-- A character that is no quote leaves the walk outside string literals. -/
theorem exists_step_eq (depth : Nat) {c : Char} (hc : isQuote c = false) :
    ∃ after, step { depth } c = { depth := after } := by
  by_cases hopen : isOpening c = true
  · exact ⟨depth + 1, by simp [step, hc, hopen]⟩
  · by_cases hclose : isClosing c = true
    · exact ⟨depth - 1, by simp [step, hc, hopen, hclose]⟩
    · exact ⟨depth, by simp [step, hc, hopen, hclose]⟩

/-- The walk stays inside a literal over all of its body, and is then where it was before. -/
theorem marks_literalBody (depth : Nat) {quote : Char} {body : List Char}
    (h : LiteralBody quote body) :
    marks { depth, quote := some quote } body = body.map (·, false) ∧
      walk { depth, quote := some quote } body = { depth, quote := some quote } := by
  induction h with
  | nil => exact ⟨rfl, rfl⟩
  | @escape c body h ih =>
    obtain ⟨hmarks, hwalk⟩ := ih
    have hescape : step { depth, quote := some quote } '\\' =
        { depth, quote := some quote, escaped := true } := rfl
    have hescaped : step { depth, quote := some quote, escaped := true } c =
        { depth, quote := some quote } := rfl
    constructor
    · rw [marks_cons, hescape, marks_cons, hescaped, hmarks]
      rfl
    · rw [walk_cons, hescape, walk_cons, hescaped, hwalk]
  | @char c body hne hescape _ h ih =>
    obtain ⟨hmarks, hwalk⟩ := ih
    have hstay : step { depth, quote := some quote } c = { depth, quote := some quote } := by
      simp [step, hne, hescape]
    constructor
    · rw [marks_cons, hstay, hmarks]
      rfl
    · rw [walk_cons, hstay, hwalk]

/-- The walk goes into a literal at its opening quote and out of it at its closing quote. -/
theorem marks_literal (depth : Nat) {quote : Char} {body : List Char}
    (hquote : isQuote quote = true) (h : LiteralBody quote body) :
    marks { depth } (quote :: body ++ [quote]) = (quote :: body ++ [quote]).map (·, false) ∧
      walk { depth } (quote :: body ++ [quote]) = { depth } := by
  have hescape : quote ≠ '\\' := by
    rintro rfl
    exact absurd hquote (by decide)
  have hopen : step { depth } quote = { depth, quote := some quote } := by simp [step, hquote]
  have hclose : step { depth, quote := some quote } quote = { depth } := by simp [step, hescape]
  have houtside : isOutside { depth } quote = false := by simp [isOutside, hquote]
  obtain ⟨hmarks, hwalk⟩ := marks_literalBody depth h
  constructor
  · rw [List.cons_append, marks_cons, hopen, houtside, marks_append, hmarks, hwalk,
      List.map_cons, List.map_append]
    rfl
  · rw [List.cons_append, walk_cons, hopen, walk_append, hwalk, walk_cons, hclose]
    rfl

end Nesting

/-! ### Their agreement -/

/-- Over one segment the walk finds what the cut found, and comes out of it outside literals. -/
theorem Segment.IsComplete.marks_text {s : Segment} (h : s.IsComplete) (depth : Nat) :
    Nesting.marks { depth } s.text = s.marks ∧
      ∃ after, walk { depth } s.text = { depth := after } := by
  cases s with
  | plain c =>
    have hc : isQuote c = false := h
    have houtside : Nesting.isOutside { depth } c = true := by simp [isOutside, hc]
    refine ⟨?_, exists_step_eq depth hc⟩
    rw [Segment.text, marks_cons, houtside]
    rfl
  | literal quote body =>
    obtain ⟨hmarks, hwalk⟩ := marks_literal depth h.1 h.2
    exact ⟨hmarks, depth, hwalk⟩
  | lineComment body => exact h.elim
  | blockComment body => exact h.elim

/-- The walk over segments one behind another finds in each of them what the cut found. -/
theorem marks_flatMap_text {kept : List Segment} (h : ∀ s ∈ kept, s.IsComplete) (depth : Nat) :
    Nesting.marks { depth } (kept.flatMap Segment.text) = kept.flatMap Segment.marks ∧
      ∃ after, walk { depth } (kept.flatMap Segment.text) = { depth := after } := by
  induction kept generalizing depth with
  | nil => exact ⟨rfl, depth, rfl⟩
  | cons s kept ih =>
    obtain ⟨hmarks, between, hbetween⟩ := (h s List.mem_cons_self).marks_text depth
    obtain ⟨hrest, after, hafter⟩ := ih (fun t ht ↦ h t (List.mem_cons_of_mem s ht)) between
    constructor
    · rw [List.flatMap_cons, marks_append, hmarks, hbetween, hrest, List.flatMap_cons]
    · exact ⟨after, by rw [List.flatMap_cons, walk_append, hbetween, hafter]⟩

/-- **The cut and the walk agree.** On a text without its comments, the walk finds a character
inside a string literal exactly if it belongs to a literal that the cut has kept, and it ends
outside literals. -/
theorem marks_stripComments {text : String} (h : ClosesLiterals text.toList) :
    Nesting.marks {} (stripComments text).toList =
        ((segments text.toList).filter fun s ↦ !s.isComment).flatMap Segment.marks ∧
      (walk {} (stripComments text).toList).quote = none ∧
      (walk {} (stripComments text).toList).escaped = false := by
  have hkept : ∀ s ∈ (segments text.toList).filter fun s ↦ !s.isComment, s.IsComplete := by
    intro s hs
    obtain ⟨hmem, hcomment⟩ := List.mem_filter.1 hs
    exact h.isComplete hmem (by simpa using hcomment)
  obtain ⟨hmarks, after, hafter⟩ := marks_flatMap_text hkept 0
  rw [stripComments, String.toList_ofList, withoutComments]
  exact ⟨hmarks, by rw [hafter], by rw [hafter]⟩

/-- Comments with quotes in them, and literals with escapes, brackets, comment openers and the other
quotes in them. -/
def quotedText : String :=
  "f(/* it's */'\\'//\x7b', \x60a\n\"\x60) // \"\n"

theorem marks_stripComments_quotedText :
    ClosesLiterals quotedText.toList ∧
      Nesting.marks {} (stripComments quotedText).toList =
        [Segment.plain 'f', .plain '(', .literal '\'' "\\'//\x7b".toList, .plain ',', .plain ' ',
          .literal '\x60' "a\n\"".toList, .plain ')', .plain ' ', .plain '\n'].flatMap
            Segment.marks ∧
      (walk {} (stripComments quotedText).toList).quote = none ∧
      (walk {} (stripComments quotedText).toList).escaped = false := by
  have hcloses : ClosesLiterals quotedText.toList := by decide +kernel
  have hkept : ((segments quotedText.toList).filter fun s ↦ !s.isComment) =
      [Segment.plain 'f', .plain '(', .literal '\'' "\\'//\x7b".toList, .plain ',', .plain ' ',
        .literal '\x60' "a\n\"".toList, .plain ')', .plain ' ', .plain '\n'] := by
    decide +kernel
  have hagree := marks_stripComments hcloses
  rw [hkept] at hagree
  exact ⟨hcloses, hagree⟩

end SchemaDiagram.Text
