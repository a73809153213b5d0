import SchemaDiagram.Text.Token

/-!
# Comments

A source text is cut from left to right into segments: closed string literals, comments, and
single plain characters. A quote or a comment opener that is never closed is a plain character,
so every text has a cut. `segments_text` says that nothing is lost; removing the comments keeps
all other segments as they are.
-/

namespace SchemaDiagram.Text

/-- A piece of a source text. -/
inductive Segment where
  /-- A character outside literals and comments. -/
  | plain (c : Char)
  /-- A closed string literal: its quote and what stands between the quotes. -/
  | literal (quote : Char) (body : List Char)
  /-- A comment up to the end of its line: what stands after the two slashes. -/
  | lineComment (body : List Char)
  /-- A comment between its two marks. -/
  | blockComment (body : List Char)
  deriving DecidableEq, Repr

namespace Segment

/-- The characters of a segment as they stand in the source. -/
def text : Segment → List Char
  | plain c => [c]
  | literal quote body => quote :: body ++ [quote]
  | lineComment body => '/' :: '/' :: body
  | blockComment body => '/' :: '*' :: body ++ ['*', '/']

/-- Whether the segment is a comment. -/
def isComment : Segment → Bool
  | lineComment _ | blockComment _ => true
  | plain _ | literal _ _ => false

end Segment

/-- The body of a string literal and the text after its closing quote, read from behind the opening
quote. A backslash escapes any next character; only the backtick allows a bare line feed. -/
def splitLiteral (quote : Char) : List Char → Option (List Char × List Char)
  | [] => none
  | '\\' :: c :: rest => (splitLiteral quote rest).map fun (body, after) ↦ ('\\' :: c :: body, after)
  | c :: rest =>
    if c = quote then some ([], rest)
    else if c = '\\' ∨ (c = '\n' ∧ quote ≠ '\x60') then none
    else (splitLiteral quote rest).map fun (body, after) ↦ (c :: body, after)

/-- The body of a block comment and the text after its closing mark, read from behind the opening
mark. -/
def splitBlockComment : List Char → Option (List Char × List Char)
  | '*' :: '/' :: rest => some ([], rest)
  | c :: rest => (splitBlockComment rest).map fun (body, after) ↦ (c :: body, after)
  | [] => none

/-- Whether a line comment goes on over the character. -/
def inLine (c : Char) : Bool := c != '\r' && c != '\n'

/-- The segment that starts with the character `c` and the text after the segment. -/
def nextSegment (c : Char) (rest : List Char) : Segment × List Char :=
  if isQuote c then
    match splitLiteral c rest with
    | some (body, after) => (.literal c body, after)
    | none => (.plain c, rest)
  else if c = '/' then
    match rest with
    | '/' :: rest => (.lineComment (rest.takeWhile inLine), rest.dropWhile inLine)
    | '*' :: after =>
      match splitBlockComment after with
      | some (body, after) => (.blockComment body, after)
      | none => (.plain c, rest)
    | _ => (.plain c, rest)
  else (.plain c, rest)

theorem splitLiteral_eq_append {quote : Char} {text body after : List Char}
    (h : splitLiteral quote text = some (body, after)) : text = body ++ quote :: after := by
  fun_induction splitLiteral quote text generalizing body after with
  | case1 => simp at h
  | case2 c rest ih =>
    obtain ⟨⟨b, a⟩, hb, heq⟩ := Option.map_eq_some_iff.1 h
    cases heq
    simp [ih hb]
  | case3 rest _ =>
    cases h
    rfl
  | case4 => simp at h
  | case5 c rest _ _ _ ih =>
    obtain ⟨⟨b, a⟩, hb, heq⟩ := Option.map_eq_some_iff.1 h
    cases heq
    simp [ih hb]

theorem splitBlockComment_eq_append {text body after : List Char}
    (h : splitBlockComment text = some (body, after)) :
    text = body ++ '*' :: '/' :: after := by
  fun_induction splitBlockComment text generalizing body after with
  | case1 rest =>
    cases h
    rfl
  | case2 c rest _ ih =>
    obtain ⟨⟨b, a⟩, hb, heq⟩ := Option.map_eq_some_iff.1 h
    cases heq
    simp [ih hb]
  | case3 => simp at h

/-- Cutting off a segment loses nothing. -/
theorem nextSegment_text (c : Char) (rest : List Char) :
    (nextSegment c rest).1.text ++ (nextSegment c rest).2 = c :: rest := by
  unfold nextSegment
  split
  · split
    · next h => simp [Segment.text, splitLiteral_eq_append h]
    · rfl
  · split
    · next hc =>
      subst hc
      split
      · simp [Segment.text, List.takeWhile_append_dropWhile]
      · split
        · next h => simp [Segment.text, splitBlockComment_eq_append h]
        · rfl
      · rfl
    · rfl

theorem Segment.text_length_pos (s : Segment) : 0 < s.text.length := by
  cases s <;> simp [Segment.text]

theorem nextSegment_length_le (c : Char) (rest : List Char) :
    (nextSegment c rest).2.length ≤ rest.length := by
  have h := congrArg List.length (nextSegment_text c rest)
  have := (nextSegment c rest).1.text_length_pos
  simp only [List.length_append, List.length_cons] at h
  omega

/-- The cut of a text into segments. -/
def segments : List Char → List Segment
  | [] => []
  | c :: rest => (nextSegment c rest).1 :: segments (nextSegment c rest).2
termination_by text => text.length
decreasing_by
  have := nextSegment_length_le c rest
  simp only [List.length_cons]
  omega

/-- The segments of a text put together are the text. -/
theorem segments_text (text : List Char) : (segments text).flatMap Segment.text = text := by
  fun_induction segments text with
  | case1 => rfl
  | case2 c rest ih => rw [List.flatMap_cons, ih, nextSegment_text]

/-- The characters of a text that belong to no comment. -/
def withoutComments (text : List Char) : List Char :=
  ((segments text).filter fun s ↦ !s.isComment).flatMap Segment.text

/-- Removes the comments of a text. The line break that ends a line comment stays. -/
def stripComments (text : String) : String :=
  String.ofList (withoutComments text.toList)

end SchemaDiagram.Text
