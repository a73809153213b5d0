import SchemaDiagram.Text.Token

/-!
# Nesting

A walk over source text that keeps count of open brackets and knows when it is inside a string
literal. It finds the commas that separate the entries of an object and the bracket that closes
a block. The three kinds of bracket are counted together, and a closing bracket without an open
one leaves the depth at zero, so the walk has an answer for every text.
-/

namespace SchemaDiagram.Text

/-- Where the walk stands: the number of open brackets, the quote of the string literal it is in,
and whether a backslash escapes the next character of that literal. -/
structure Nesting where
  /-- The number of open brackets. -/
  depth : Nat := 0
  /-- The quote that closes the string literal. -/
  quote : Option Char := none
  /-- Whether the next character of the literal is escaped. -/
  escaped : Bool := false
  deriving DecidableEq, Repr

namespace Nesting

/-- Whether the character opens a bracket. -/
def isOpening (c : Char) : Bool := c == '{' || c == '[' || c == '('

/-- Whether the character closes a bracket. -/
def isClosing (c : Char) : Bool := c == '}' || c == ']' || c == ')'

/-- The state after one more character. -/
def step (n : Nesting) (c : Char) : Nesting :=
  match n.quote with
  | some quote =>
    if n.escaped then { n with escaped := false }
    else if c = '\\' then { n with escaped := true }
    else if c = quote then { n with quote := none }
    else n
  | none =>
    if isQuote c then { n with quote := some c }
    else if isOpening c then { n with depth := n.depth + 1 }
    else if isClosing c then { n with depth := n.depth - 1 }
    else n

/-- Whether the next character stands outside string literals; a quote belongs to its literal. -/
def isOutside (n : Nesting) (c : Char) : Bool := n.quote.isNone && !isQuote c

/-- The state after a text. -/
def walk (n : Nesting) (text : List Char) : Nesting := text.foldl step n

/-- Whether the walk steps over `c`, outside string literals, to a place where no bracket is open. -/
def surfacesAt (n : Nesting) (c : Char) : Bool := n.isOutside c && (n.step c).depth == 0

/-- The parts of a text between the commas at which no bracket is open. -/
def split (n : Nesting) : List Char → List (List Char)
  | [] => [[]]
  | c :: rest =>
    if c = ',' ∧ n.surfacesAt c then [] :: split (n.step c) rest
    else
      match split (n.step c) rest with
      | first :: others => (c :: first) :: others
      | [] => [[c]]

/-- The shortest front part of a text after which no bracket is open, and the text after it. -/
def takeBlock (n : Nesting) : List Char → Option (List Char × List Char)
  | [] => none
  | c :: rest =>
    if n.surfacesAt c then some ([c], rest)
    else (takeBlock (n.step c) rest).map fun (block, after) ↦ (c :: block, after)

end Nesting

/-- The parts of a text between its commas outside brackets and string literals, trimmed; parts
with nothing in them are left out. -/
def splitTopLevel (text : List Char) : List (List Char) :=
  ((Nesting.split {} text).map trim).filter fun part ↦ !part.isEmpty

/-- The block that starts the text: up to the character at which its brackets are closed. -/
def block? (text : List Char) : Option (List Char × List Char) :=
  Nesting.takeBlock {} text

end SchemaDiagram.Text
