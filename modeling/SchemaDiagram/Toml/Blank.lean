import SchemaDiagram.Text.Token

/-!
# White space and comments in TOML

Blanks are spaces and tabs. A line ends with a line feed, which one carriage return may precede; a
carriage return alone is an error everywhere, as are other control characters in comments.
-/

namespace SchemaDiagram.Toml

open Text

/-- Whether the character is a space or a tab. -/
def isSpace (c : Char) : Bool := c == ' ' || c == '\t'

/-- The text behind its leading spaces and tabs. -/
def skipSpaces (text : List Char) : List Char := text.dropWhile isSpace

/-- Whether a comment and a literal string may contain the character: no control characters but
the tab. -/
def isPrintable (c : Char) : Bool := c == '\t' || (0x20 ≤ c.toNat && c.toNat != 0x7F)

/-- The text after a line break. -/
def lineBreak? : List Char → Option (List Char)
  | c :: rest =>
    if c = '\n' then some rest else if c = '\r' then expect '\n' rest else none
  | [] => none

/-- The text after a comment, which ends before a line break. A text without one is left as it
is. -/
def skipComment : List Char → List Char
  | [] => []
  | c :: rest => if c = '#' then rest.dropWhile isPrintable else c :: rest

/-- The text after the rest of a line: blanks, a comment, and a line break or the end. -/
def endOfLine? (text : List Char) : Option (List Char) :=
  match skipComment (skipSpaces text) with
  | [] => some []
  | rest => lineBreak? rest

theorem length_lt_of_lineBreak? {text rest : List Char} (h : lineBreak? text = some rest) :
    rest.length < text.length := by
  cases text with
  | nil => simp [lineBreak?] at h
  | cons c text =>
    simp only [lineBreak?] at h
    split at h
    · cases h
      simp
    · split at h
      · have := congrArg List.length (expect_eq_some_iff.1 h)
        grind
      · simp at h

theorem skipSpaces_length_le (text : List Char) : (skipSpaces text).length ≤ text.length :=
  dropWhile_length_le isSpace text

theorem skipComment_length_le (text : List Char) : (skipComment text).length ≤ text.length := by
  cases text with
  | nil => exact Nat.le_refl _
  | cons c text =>
    have := dropWhile_length_le isPrintable text
    grind [skipComment]

/-- The text behind blanks, line breaks and comments, which may stand between the items of a list.
A comment has to end with a line break. -/
def skipLines (text : List Char) : List Char :=
  match _h : lineBreak? (skipComment (skipSpaces text)) with
  | some rest => skipLines rest
  | none => skipSpaces text
termination_by text.length
decreasing_by
  have := length_lt_of_lineBreak? _h
  have := skipComment_length_le (skipSpaces text)
  have := skipSpaces_length_le text
  omega

end SchemaDiagram.Toml
