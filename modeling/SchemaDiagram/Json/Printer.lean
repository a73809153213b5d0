import SchemaDiagram.Json.Value

/-!
# JSON text

Values are printed over several lines, two spaces for each level; an empty list or object stays on
its line. In a string only quotes, backslashes and control characters are escaped, with the short
escape where there is one.
-/

namespace SchemaDiagram.Json

/-- A digit of the hexadecimal system. -/
def hexDigit (n : Nat) : Char :=
  if n < 10 then Char.ofNat (48 + n) else Char.ofNat (87 + n)

/-- A character as it is written within a string. -/
def escapeChar (c : Char) : List Char :=
  if c = '"' then ['\\', '"']
  else if c = '\\' then ['\\', '\\']
  else if c = '\n' then ['\\', 'n']
  else if c = '\r' then ['\\', 'r']
  else if c = '\t' then ['\\', 't']
  else if c = '\x08' then ['\\', 'b']
  else if c = '\x0C' then ['\\', 'f']
  else if c.toNat < 0x20 then
    ['\\', 'u', '0', '0', hexDigit (c.toNat / 16), hexDigit (c.toNat % 16)]
  else [c]

/-- A string with its quotes. -/
def quoted (text : String) : String :=
  "\"" ++ String.ofList (text.toList.flatMap escapeChar) ++ "\""

/-- The blanks before a line at the given level. -/
def indentation (level : Nat) : String := String.ofList (List.replicate (2 * level) ' ')

/-- The items of a container, each on a line of its own, between the container's brackets. -/
def container (opening closing : String) (level : Nat) (items : List String) : String :=
  if items.isEmpty then opening ++ closing
  else
    opening ++ "\n"
      ++ String.intercalate ",\n" (items.map (indentation (level + 1) ++ ·))
      ++ "\n" ++ indentation level ++ closing

mutual

/-- The text of a value whose first line stands at the given level. -/
def printAt (level : Nat) : Json → String
  | .null => "null"
  | .bool true => "true"
  | .bool false => "false"
  | .number value => String.ofList (Nat.toDigits 10 value)
  | .string value => quoted value
  | .array items => container "[" "]" level (printItems (level + 1) items)
  | .object members => container "\x7b" "\x7d" level (printMembers (level + 1) members)

/-- The texts of the items of a list. -/
def printItems (level : Nat) : List Json → List String
  | [] => []
  | item :: others => printAt level item :: printItems level others

/-- The texts of the members of an object. -/
def printMembers (level : Nat) : List (String × Json) → List String
  | [] => []
  | (name, value) :: others =>
    (quoted name ++ ": " ++ printAt level value) :: printMembers level others

end

/-- The text of a value. -/
def print (value : Json) : String := printAt 0 value

end SchemaDiagram.Json
