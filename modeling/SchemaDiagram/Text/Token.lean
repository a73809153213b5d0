import SchemaDiagram.Text.Blank
import SchemaDiagram.Text.WordChar

/-!
# Tokens

Readers for the small pieces of a source text. A reader takes the text from some place on and
answers the text after what it read, or `none` where the text does not go on that way. What is
read never has to be given back: an identifier ends where no word character follows, and white
space ends where none follows, so each reader has one answer.
-/

namespace SchemaDiagram.Text

/-- Whether the character opens and closes a string literal. -/
def isQuote (c : Char) : Bool := c == '"' || c == '\'' || c == '\x60'

/-- The text after the character `c`. -/
def expect (c : Char) : List Char → Option (List Char)
  | d :: rest => if d = c then some rest else none
  | [] => none

/-- The text after the character `c`, which white space may precede. -/
def expectToken (c : Char) (text : List Char) : Option (List Char) :=
  expect c (skipBlanks text)

/-- The text after a given run of characters. -/
def expectWord : (word text : List Char) → Option (List Char)
  | [], text => some text
  | c :: word, text => (expect c text).bind (expectWord word)

/-- The text after at least one white-space character and all that follow it. -/
def expectBlanks : List Char → Option (List Char)
  | c :: rest => if isBlank c then some (skipBlanks rest) else none
  | [] => none

/-- Whether the text starts with a word character. -/
def startsWord : List Char → Bool
  | c :: _ => isWordChar c
  | [] => false

/-- The longest run of word characters at the front, if there is one, and the text after it. -/
def word? (text : List Char) : Option (List Char × List Char) :=
  if startsWord text then some (text.takeWhile isWordChar, text.dropWhile isWordChar) else none

/-- Whether an identifier may start with the character: an ASCII letter or an underscore. -/
def isIdentifierStart (c : Char) : Bool := c.isAlpha || c == '_'

/-- The identifier at the front and the text after it. -/
def identifier? : List Char → Option (List Char × List Char)
  | c :: rest =>
    if isIdentifierStart c then some (c :: rest.takeWhile isWordChar, rest.dropWhile isWordChar)
    else none
  | [] => none

theorem dropWhile_length_le (p : Char → Bool) (text : List Char) :
    (text.dropWhile p).length ≤ text.length :=
  (List.dropWhile_sublist p).length_le

theorem expect_eq_some_iff {c : Char} {text rest : List Char} :
    expect c text = some rest ↔ text = c :: rest := by
  cases text <;> grind [expect]

theorem expectWord_eq_some_iff {word text rest : List Char} :
    expectWord word text = some rest ↔ text = word ++ rest := by
  induction word generalizing text with
  | nil => simp [expectWord]
  | cons c word ih =>
    simp only [expectWord, Option.bind_eq_some_iff, expect_eq_some_iff, ih, List.cons_append]
    constructor
    · rintro ⟨_, rfl, rfl⟩
      rfl
    · rintro rfl
      exact ⟨_, rfl, rfl⟩

theorem length_le_of_expectWord {word text rest : List Char}
    (h : expectWord word text = some rest) : rest.length ≤ text.length := by
  simp [expectWord_eq_some_iff.1 h]

theorem length_lt_of_expectToken {c : Char} {text rest : List Char}
    (h : expectToken c text = some rest) : rest.length < text.length := by
  have := congrArg List.length (expect_eq_some_iff.1 h)
  have := skipBlanks_length_le text
  grind

theorem length_lt_of_expectBlanks {text rest : List Char} (h : expectBlanks text = some rest) :
    rest.length < text.length := by
  cases text with
  | nil => simp [expectBlanks] at h
  | cons c text =>
    have := skipBlanks_length_le text
    grind [expectBlanks]

theorem length_lt_of_identifier? {text name rest : List Char}
    (h : identifier? text = some (name, rest)) : rest.length < text.length := by
  cases text with
  | nil => simp [identifier?] at h
  | cons c text =>
    have := dropWhile_length_le isWordChar text
    grind [identifier?]

/-- The identifiers that follow, each after a dot; white space may stand around the dots. A dot
without an identifier after it is left in the text. -/
def dottedTail (text : List Char) : List (List Char) × List Char :=
  match _h : (expectToken '.' text).bind fun rest ↦ identifier? (skipBlanks rest) with
  | some (name, rest) =>
    let tail := dottedTail rest
    (name :: tail.1, tail.2)
  | none => ([], text)
termination_by text.length
decreasing_by
  obtain ⟨mid, hmid, hname⟩ := Option.bind_eq_some_iff.1 _h
  have := length_lt_of_expectToken hmid
  have := skipBlanks_length_le mid
  have := length_lt_of_identifier? hname
  omega

/-- The last identifier of a dotted path and the text after the path. -/
def dottedPath? (text : List Char) : Option (List Char × List Char) :=
  (identifier? text).map fun (first, rest) ↦
    let tail := dottedTail rest
    (tail.1.getLastD first, tail.2)

theorem dottedTail_length_le (text : List Char) : (dottedTail text).2.length ≤ text.length := by
  fun_induction dottedTail text with
  | case1 text name rest h tail ih =>
    obtain ⟨mid, hmid, hname⟩ := Option.bind_eq_some_iff.1 h
    have := length_lt_of_expectToken hmid
    have := skipBlanks_length_le mid
    have := length_lt_of_identifier? hname
    simp only [tail]
    omega
  | case2 => exact Nat.le_refl _

theorem length_lt_of_dottedPath? {text name rest : List Char}
    (h : dottedPath? text = some (name, rest)) : rest.length < text.length := by
  obtain ⟨⟨first, mid⟩, hfirst, heq⟩ := Option.map_eq_some_iff.1 h
  cases heq
  have := length_lt_of_identifier? hfirst
  have := dottedTail_length_le mid
  omega

/-- The leftmost answer of a reader that is tried only where no word goes on, and no further than
the first character at which to stop. `afterWord` says whether a word character stands before. -/
def findBefore {α : Type} (stop : Char → Bool) (read : List Char → Option α) :
    (afterWord : Bool) → List Char → Option α
  | _, [] => none
  | afterWord, c :: rest =>
    match if afterWord then none else read (c :: rest) with
    | some answer => some answer
    | none => if stop c then none else findBefore stop read (isWordChar c) rest

/-- The leftmost answer of a reader that is tried only where no word goes on. -/
def findAtWord {α : Type} (read : List Char → Option α) (text : List Char) : Option α :=
  findBefore (fun _ ↦ false) read false text

end SchemaDiagram.Text
