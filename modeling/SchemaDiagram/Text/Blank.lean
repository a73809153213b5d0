/-!
# White space

The white space between tokens, and what trimming removes: the 25 characters with the property
White_Space. The zero-width space and the byte order mark are not among them.
-/

namespace SchemaDiagram.Text

/-- Whether the character is white space. -/
def isBlank (c : Char) : Bool :=
  let code := c.toNat
  (0x9 ≤ code && code ≤ 0xD) || code == 0x20 || code == 0x85 || code == 0xA0 || code == 0x1680
    || (0x2000 ≤ code && code ≤ 0x200A) || code == 0x2028 || code == 0x2029 || code == 0x202F
    || code == 0x205F || code == 0x3000

/-- The text from its first character that is not white space. -/
def skipBlanks (text : List Char) : List Char :=
  text.dropWhile isBlank

/-- The text up to its last character that is not white space. -/
def trimEnd (text : List Char) : List Char :=
  (text.reverse.dropWhile isBlank).reverse

/-- The text without the white space at its ends. -/
def trim (text : List Char) : List Char :=
  trimEnd (skipBlanks text)

theorem skipBlanks_length_le (text : List Char) : (skipBlanks text).length ≤ text.length :=
  (List.dropWhile_sublist _).length_le

end SchemaDiagram.Text
