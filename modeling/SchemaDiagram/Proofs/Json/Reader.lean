import SchemaDiagram.Json.Printer
import SchemaDiagram.Toml.Quoted

/-!
# Reading JSON

The other side of the printer: the value of a JSON text, as every program reads it that is given
one. White space may stand around every token, a character of a string may be escaped in each of the
ways there are, and no comma may be missing or left over. Of the numbers only counts are read, which
are all that a value here can hold.
-/

namespace SchemaDiagram.Json

open Text
open Toml (hexNumber? hexNumber?_length_le)

/-- Whether the character may stand between tokens: a space, a tab, or what ends a line. -/
def isSpace (c : Char) : Bool := c == ' ' || c == '\t' || c == '\n' || c == '\r'

/-- The text from its first token on. -/
def skipSpaces (text : List Char) : List Char := text.dropWhile isSpace

/-! ### Strings -/

/-- The escapes of one character, and the characters that they stand for. -/
def shortEscapes : List (Char × Char) :=
  [('"', '"'), ('\\', '\\'), ('/', '/'), ('b', '\x08'), ('f', '\x0C'), ('n', '\n'), ('r', '\r'),
    ('t', '\t')]

/-- The character whose number is given in two halves, each of which is the number of no
character. -/
def ofHalves? (high low : Nat) : Option Char :=
  if 0xD800 ≤ high ∧ high < 0xDC00 ∧ 0xDC00 ≤ low ∧ low < 0xE000 then
    some (Char.ofNat (0x10000 + 0x400 * (high - 0xD800) + (low - 0xDC00)))
  else none

/-- The character whose number is written with four hexadecimal digits. A greater number is written
in two halves, of which the second one has an escape of its own. -/
def numberedChar? (text : List Char) : Option (Char × List Char) := do
  let (code, rest) ← hexNumber? 0 4 text
  if code.isValidChar then some (Char.ofNat code, rest)
  else
    let rest ← expectWord ['\\', 'u'] rest
    let (low, rest) ← hexNumber? 0 4 rest
    (ofHalves? code low).map fun c ↦ (c, rest)

/-- The character that an escape stands for, read from behind the backslash. -/
def escape? : List Char → Option (Char × List Char)
  | [] => none
  | c :: rest =>
    match shortEscapes.lookup c with
    | some d => some (d, rest)
    | none => if c = 'u' then numberedChar? rest else none

theorem numberedChar?_length_le {c : Char} {text rest : List Char}
    (h : numberedChar? text = some (c, rest)) : rest.length ≤ text.length := by
  simp only [numberedChar?, Option.bind_eq_bind, Option.bind_eq_some_iff, Prod.exists] at h
  obtain ⟨code, behind, hcode, h⟩ := h
  have hle := hexNumber?_length_le hcode
  split at h
  · obtain ⟨-, rfl⟩ : Char.ofNat code = c ∧ behind = rest := by simpa using h
    exact hle
  · simp only [Option.bind_eq_some_iff, Prod.exists, Option.map_eq_some_iff] at h
    obtain ⟨second, hsecond, low, after, hlow, d, -, heq⟩ := h
    have hword := length_le_of_expectWord hsecond
    have hlow := hexNumber?_length_le hlow
    obtain ⟨-, rfl⟩ : d = c ∧ after = rest := by simpa using heq
    omega

theorem length_lt_of_escape? {c : Char} {text rest : List Char}
    (h : escape? text = some (c, rest)) : rest.length < text.length := by
  cases text with
  | nil => simp [escape?] at h
  | cons d text =>
    have hnumber : numberedChar? text = some (c, rest) → rest.length ≤ text.length :=
      numberedChar?_length_le
    grind [escape?]

/-- The characters of a string and the text after its closing quote, read from behind the opening
one. No control character stands in a string as it is. -/
def stringBody? : List Char → Option (List Char × List Char)
  | [] => none
  | c :: rest =>
    if c = '"' then some ([], rest)
    else if c = '\\' then
      match _h : escape? rest with
      | some (d, after) => (stringBody? after).map fun (body, after) ↦ (d :: body, after)
      | none => none
    else if c.toNat < 0x20 then none
    else (stringBody? rest).map fun (body, after) ↦ (c :: body, after)
termination_by text => text.length
decreasing_by
  · have := length_lt_of_escape? _h
    simp only [List.length_cons]
    omega
  · simp

/-! ### Values -/

/-- A count and the text after it. It has no needless zero in front, and neither a fraction nor an
exponent behind. -/
def number? (text : List Char) : Option (Nat × List Char) :=
  let digits := text.takeWhile Char.isDigit
  let rest := text.dropWhile Char.isDigit
  if digits = [] ∨ (digits.head? = some '0' ∧ digits ≠ ['0'])
      ∨ rest.head? ∈ [some '.', some 'e', some 'E'] then none
  else some (Nat.ofDigitChars 10 digits 0, rest)

/-- A value that holds no others, strings apart, and the text after it. -/
def plainValue? (text : List Char) : Option (Json × List Char) :=
  ((expectWord ['n', 'u', 'l', 'l'] text).map fun rest ↦ (.null, rest))
  |>.or ((expectWord ['t', 'r', 'u', 'e'] text).map fun rest ↦ (.bool true, rest))
  |>.or ((expectWord ['f', 'a', 'l', 's', 'e'] text).map fun rest ↦ (.bool false, rest))
  |>.or ((number? text).map fun (value, rest) ↦ (.number value, rest))

section Container

variable {α : Type} (item : List Char → Option (α × List Char)) (closing : Char)

/-- Items with commas between them, up to the closing bracket. Each item takes at least one
character, so the text's length is a sufficient budget. -/
def items? : (budget : Nat) → List Char → Option (List α × List Char)
  | 0, _ => none
  | budget + 1, text => do
    let (first, rest) ← item (skipSpaces text)
    let rest := skipSpaces rest
    match expect ',' rest with
    | some rest => (items? budget rest).map fun (others, rest) ↦ (first :: others, rest)
    | none => (expect closing rest).map fun rest ↦ ([first], rest)

/-- What a container holds, and the text after its closing bracket, read from behind the opening
one. -/
def containerBody? (text : List Char) : Option (List α × List Char) :=
  match expect closing (skipSpaces text) with
  | some rest => some ([], rest)
  | none => items? item closing text.length text

end Container

/-- A member of an object: its name, a colon, and its value. -/
def namedValue? (item : List Char → Option (Json × List Char)) (text : List Char) :
    Option ((String × Json) × List Char) := do
  let rest ← expect '"' text
  let (name, rest) ← stringBody? rest
  let rest ← expect ':' (skipSpaces rest)
  let (value, rest) ← item (skipSpaces rest)
  some ((String.ofList name, value), rest)

/-- A value and the text after it; `depth` bounds how deep values nest in it. -/
def valueWithin? : (depth : Nat) → List Char → Option (Json × List Char)
  | depth, text =>
    match text with
    | [] => none
    | c :: rest =>
      if c = '"' then
        (stringBody? rest).map fun (body, rest) ↦ (.string (String.ofList body), rest)
      else if c = '[' then
        match depth with
        | 0 => none
        | depth + 1 =>
          (containerBody? (valueWithin? depth) ']' rest).map fun (items, rest) ↦
            (.array items, rest)
      else if c = '\x7b' then
        match depth with
        | 0 => none
        | depth + 1 =>
          (containerBody? (namedValue? (valueWithin? depth)) '\x7d' rest).map
            fun (members, rest) ↦ (.object members, rest)
      else plainValue? text

/-- The value that a text stands for. Values do not nest deeper than the text is long. -/
def parse? (text : String) : Option Json := do
  let (value, rest) ← valueWithin? text.toList.length (skipSpaces text.toList)
  if skipSpaces rest = [] then some value else none

end SchemaDiagram.Json
