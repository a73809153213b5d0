import SchemaDiagram.Toml.Blank

/-!
# TOML strings

A string is basic, with escapes between double quotes, or literal, without escapes between single
quotes; either kind takes several lines between tripled quotes. In those a line break is read as a
line feed, and the first one, right behind the opening quotes, is not part of the string.
-/

namespace SchemaDiagram.Toml

open Text

/-- The value of a hexadecimal digit. -/
def hexValue? (c : Char) : Option Nat :=
  if '0' ≤ c ∧ c ≤ '9' then some (c.toNat - '0'.toNat)
  else if 'a' ≤ c ∧ c ≤ 'f' then some (c.toNat - 'a'.toNat + 10)
  else if 'A' ≤ c ∧ c ≤ 'F' then some (c.toNat - 'A'.toNat + 10)
  else none

/-- The number written with the given count of hexadecimal digits. -/
def hexNumber? (acc : Nat) : (count : Nat) → List Char → Option (Nat × List Char)
  | 0, text => some (acc, text)
  | _ + 1, [] => none
  | count + 1, c :: rest => (hexValue? c).bind fun d ↦ hexNumber? (16 * acc + d) count rest

/-- The character with the code point that is written with the given count of digits. Surrogates
are no characters. -/
def codePoint? (count : Nat) (text : List Char) : Option (Char × List Char) := do
  let (code, rest) ← hexNumber? 0 count text
  if code.isValidChar then some (Char.ofNat code, rest) else none

/-- The escapes of one letter, and the characters that they stand for. -/
def shortEscapes : List (Char × Char) :=
  [('b', '\x08'), ('t', '\t'), ('n', '\n'), ('f', '\x0C'), ('r', '\r'), ('"', '"'), ('\\', '\\')]

/-- The character that an escape stands for, read from behind the backslash. -/
def escape? : List Char → Option (Char × List Char)
  | [] => none
  | c :: rest =>
    match shortEscapes.lookup c with
    | some d => some (d, rest)
    | none => if c = 'u' then codePoint? 4 rest else if c = 'U' then codePoint? 8 rest else none

theorem hexNumber?_length_le {acc count n : Nat} {text rest : List Char}
    (h : hexNumber? acc count text = some (n, rest)) : rest.length ≤ text.length := by
  induction count generalizing acc text with
  | zero => grind [hexNumber?]
  | succ count ih =>
    cases text with
    | nil => simp [hexNumber?] at h
    | cons c text =>
      obtain ⟨d, -, hd⟩ := Option.bind_eq_some_iff.1 h
      exact Nat.le_succ_of_le (ih hd)

theorem codePoint?_length_le {count : Nat} {c : Char} {text rest : List Char}
    (h : codePoint? count text = some (c, rest)) : rest.length ≤ text.length := by
  simp only [codePoint?, Option.bind_eq_bind, Option.bind_eq_some_iff, Prod.exists] at h
  obtain ⟨n, r, hn, h⟩ := h
  have := hexNumber?_length_le hn
  grind

theorem length_lt_of_escape? {c : Char} {text rest : List Char}
    (h : escape? text = some (c, rest)) : rest.length < text.length := by
  cases text with
  | nil => simp [escape?] at h
  | cons d text =>
    have hcode : ∀ count, codePoint? count text = some (c, rest) → rest.length ≤ text.length :=
      fun _ ↦ codePoint?_length_le
    grind [escape?]

/-- Whether a basic string may contain the character as it stands. -/
def isBasicChar (c : Char) : Bool := isPrintable c && c != '"' && c != '\\'

/-- The characters of a basic string on one line, and the text after its closing quote. -/
def basicLine? : List Char → Option (List Char × List Char)
  | [] => none
  | c :: rest =>
    if c = '"' then some ([], rest)
    else if c = '\\' then
      match _h : escape? rest with
      | some (d, after) => (basicLine? after).map fun (body, after) ↦ (d :: body, after)
      | none => none
    else if isBasicChar c then (basicLine? rest).map fun (body, after) ↦ (c :: body, after)
    else none
termination_by text => text.length
decreasing_by
  · have := length_lt_of_escape? _h
    simp only [List.length_cons]
    omega
  · simp

/-- The characters of a literal string on one line, and the text after its closing quote. -/
def literalLine? : List Char → Option (List Char × List Char)
  | [] => none
  | c :: rest =>
    if c = '\'' then some ([], rest)
    else if isPrintable c then (literalLine? rest).map fun (body, after) ↦ (c :: body, after)
    else none

/-- The number of leading characters that are the quote. -/
def countQuotes (quote : Char) (text : List Char) : Nat := (text.takeWhile (· == quote)).length

/-- How a run of quotes within a string of several lines is read: `none` if the run is part of the
string, and otherwise the number of its quotes that still belong to the string before the three
that close it. -/
def closingQuotes? (count : Nat) : Option Nat :=
  if count < 3 then none else some (min (count - 3) 2)

/-- The text after blanks and line breaks, at least one of them a line break, which a backslash at
the end of a line removes. -/
def continuedLine? (text : List Char) : Option (List Char) :=
  (lineBreak? (skipSpaces text)).map fun rest ↦ blanks rest.length rest
where
  /-- The text behind blanks and line breaks; the budget bounds the number of lines. -/
  blanks : Nat → List Char → List Char
    | 0, text => text
    | budget + 1, text =>
      match lineBreak? (skipSpaces text) with
      | some rest => blanks budget rest
      | none => skipSpaces text

theorem continuedLine?_blanks_length_le (budget : Nat) (text : List Char) :
    (continuedLine?.blanks budget text).length ≤ text.length := by
  have hspaces := skipSpaces_length_le
  induction budget generalizing text with
  | zero => exact Nat.le_refl _
  | succ budget ih =>
    simp only [continuedLine?.blanks]
    split
    · next rest h =>
      have := length_lt_of_lineBreak? h
      have := ih rest
      have := hspaces text
      omega
    · exact hspaces text

theorem length_lt_of_continuedLine? {text rest : List Char} (h : continuedLine? text = some rest) :
    rest.length < text.length := by
  obtain ⟨r, hr, rfl⟩ := Option.map_eq_some_iff.1 h
  have := length_lt_of_lineBreak? hr
  have := skipSpaces_length_le text
  have := continuedLine?_blanks_length_le r.length r
  omega

/-- The characters of a basic string of several lines, and the text after its closing quotes. -/
def basicLines? : List Char → Option (List Char × List Char)
  | [] => none
  | c :: rest =>
    if c = '"' then
      match closingQuotes? (countQuotes '"' (c :: rest)) with
      | some inner => some (List.replicate inner '"', (c :: rest).drop (inner + 3))
      | none => (basicLines? rest).map fun (body, after) ↦ (c :: body, after)
    else if c = '\\' then
      match _h : continuedLine? rest with
      | some after => basicLines? after
      | none =>
        match _h' : escape? rest with
        | some (d, after) => (basicLines? after).map fun (body, after) ↦ (d :: body, after)
        | none => none
    else if isBasicChar c then (basicLines? rest).map fun (body, after) ↦ (c :: body, after)
    else
      match _h : lineBreak? (c :: rest) with
      | some after => (basicLines? after).map fun (body, after) ↦ ('\n' :: body, after)
      | none => none
termination_by text => text.length
decreasing_by
  · simp
  · have := length_lt_of_continuedLine? _h
    simp only [List.length_cons]
    omega
  · have := length_lt_of_escape? _h'
    simp only [List.length_cons]
    omega
  · simp
  · exact length_lt_of_lineBreak? _h

/-- The characters of a literal string of several lines, and the text after its closing quotes. -/
def literalLines? : List Char → Option (List Char × List Char)
  | [] => none
  | c :: rest =>
    if c = '\'' then
      match closingQuotes? (countQuotes '\'' (c :: rest)) with
      | some inner => some (List.replicate inner '\'', (c :: rest).drop (inner + 3))
      | none => (literalLines? rest).map fun (body, after) ↦ (c :: body, after)
    else if isPrintable c then (literalLines? rest).map fun (body, after) ↦ (c :: body, after)
    else
      match _h : lineBreak? (c :: rest) with
      | some after => (literalLines? after).map fun (body, after) ↦ ('\n' :: body, after)
      | none => none
termination_by text => text.length
decreasing_by
  · simp
  · simp
  · exact length_lt_of_lineBreak? _h

/-- The text behind a line break at its front, if there is one. -/
def skipLineBreak (text : List Char) : List Char := (lineBreak? text).getD text

/-- A string on one line and the text after it; the form in which keys may be quoted. -/
def lineString? : List Char → Option (List Char × List Char)
  | [] => none
  | c :: rest =>
    if c = '"' then basicLine? rest else if c = '\'' then literalLine? rest else none

/-- A string of either kind and the text after it. -/
def string? (text : List Char) : Option (List Char × List Char) :=
  match expectWord ['"', '"', '"'] text with
  | some rest => basicLines? (skipLineBreak rest)
  | none =>
    match expectWord ['\'', '\'', '\''] text with
    | some rest => literalLines? (skipLineBreak rest)
    | none => lineString? text

/-! ### Writing

A string is written in the plainest style that shows its characters as they are: one line before
several, double quotes before single ones. Escapes are a last resort, for no style is without them
when a control character occurs. -/

/-- The ways to quote a string. -/
inductive Style where
  /-- Between double quotes, with escapes. -/
  | basic
  /-- Between single quotes, without escapes. -/
  | literal
  /-- Between tripled double quotes, with escapes. -/
  | basicLines
  /-- Between tripled single quotes, without escapes. -/
  | literalLines
  deriving DecidableEq, Repr

/-- Whether a character is escaped wherever it stands: a control character other than the tab and
the line feed. -/
def needsEscape (c : Char) : Bool := (c.toNat < 0x20 && c != '\t' && c != '\n') || c.toNat == 0x7F

/-- The length of the longest run of a character in a text, behind `current` of them and runs of up
to `longest`. -/
def longestRun (quote : Char) (current longest : Nat) : List Char → Nat
  | [] => max current longest
  | c :: rest =>
    if c = quote then longestRun quote (current + 1) longest rest
    else longestRun quote 0 (max current longest) rest

/-- The style in which a string is written. Between tripled quotes there is room for two quotes in
a row. -/
def styleOf (text : List Char) : Style :=
  if !text.any needsEscape then
    if !text.contains '\n' && !text.contains '\\' && !text.contains '"' then .basic
    else if !text.contains '\n' && !text.contains '\'' then .literal
    else if !text.contains '\\' && longestRun '"' 0 0 text ≤ 2 then .basicLines
    else if longestRun '\'' 0 0 text ≤ 2 then .literalLines
    else if text.contains '\n' then .basicLines
    else .basic
  else if text.contains '\n' then .basicLines
  else .basic

/-- A digit of the hexadecimal system, in upper case. -/
def upperHexDigit (n : Nat) : Char :=
  if n < 10 then Char.ofNat (48 + n) else Char.ofNat (55 + n)

/-- A character other than the quote and the line feed within a basic string. -/
def basicChar (c : Char) : List Char :=
  if c = '\x08' then ['\\', 'b']
  else if c = '\t' then ['\\', 't']
  else if c = '\x0C' then ['\\', 'f']
  else if c = '\r' then ['\\', 'r']
  else if c = '\\' then ['\\', '\\']
  else if needsEscape c then
    ['\\', 'u', '0', '0', upperHexDigit (c.toNat / 16), upperHexDigit (c.toNat % 16)]
  else [c]

/-- The characters of a basic string on one line. -/
def writeBasicLine : List Char → List Char
  | [] => []
  | c :: rest =>
    if c = '"' then '\\' :: '"' :: writeBasicLine rest
    else if c = '\n' then '\\' :: 'n' :: writeBasicLine rest
    else basicChar c ++ writeBasicLine rest

/-- The characters of a basic string between tripled quotes, behind `quotes` bare quotes. Line feeds
stand for themselves, and so do two quotes in a row; one more could close the string. -/
def writeBasicLines (quotes : Nat) : List Char → List Char
  | [] => []
  | c :: rest =>
    if c = '"' then
      if quotes < 2 then '"' :: writeBasicLines (quotes + 1) rest
      else '\\' :: '"' :: writeBasicLines 0 rest
    else if c = '\n' then '\n' :: writeBasicLines 0 rest
    else basicChar c ++ writeBasicLines 0 rest

/-- The line break behind opening quotes, which is not part of the string: it is there if the string
itself has one. -/
def openingBreak (text : List Char) : List Char := if text.contains '\n' then ['\n'] else []

/-- A string with its quotes. -/
def writeString (text : List Char) : List Char :=
  match styleOf text with
  | .basic => '"' :: writeBasicLine text ++ ['"']
  | .literal => '\'' :: text ++ ['\'']
  | .basicLines =>
    ['"', '"', '"'] ++ openingBreak text ++ writeBasicLines 0 text ++ ['"', '"', '"']
  | .literalLines => ['\'', '\'', '\''] ++ openingBreak text ++ text ++ ['\'', '\'', '\'']

end SchemaDiagram.Toml
