/-!
# UTF-8

Texts are kept in files as UTF-8. A file is decoded strictly, or with a replacement character for
each longest stretch of bytes that begins a character but does not go on as one. A first byte fixes
how many bytes follow and the range of the first of them, which excludes overlong forms, surrogates
and numbers beyond the last code point.
-/

namespace SchemaDiagram.Text

/-- What a first byte promises about a character. -/
structure Lead where
  /-- The bits of the character that the byte holds. -/
  bits : Nat
  /-- The number of bytes that follow. -/
  following : Nat
  /-- The least value of the next byte. -/
  low : UInt8 := 0x80
  /-- The greatest value of the next byte. -/
  high : UInt8 := 0xBF

/-- The reading of a first byte; `none` for a byte that begins no character. -/
def lead? (b : UInt8) : Option Lead :=
  if b < 0x80 then some { bits := b.toNat, following := 0 }
  else if b < 0xC2 then none
  else if b < 0xE0 then some { bits := b.toNat - 0xC0, following := 1 }
  else if b = 0xE0 then some { bits := 0, following := 2, low := 0xA0 }
  else if b = 0xED then some { bits := 0xD, following := 2, high := 0x9F }
  else if b < 0xF0 then some { bits := b.toNat - 0xE0, following := 2 }
  else if b = 0xF0 then some { bits := 0, following := 3, low := 0x90 }
  else if b < 0xF4 then some { bits := b.toNat - 0xF0, following := 3 }
  else if b = 0xF4 then some { bits := 4, following := 3, high := 0x8F }
  else none

/-- Reads the bytes that follow a first byte: the code point, or `none` at the first byte that does
not fit, and the bytes from there on. -/
def readFollowing (bits : Nat) :
    (following : Nat) → (low high : UInt8) → List UInt8 → Option Nat × List UInt8
  | 0, _, _, bytes => (some bits, bytes)
  | _ + 1, _, _, [] => (none, [])
  | following + 1, low, high, b :: bytes =>
    if low ≤ b ∧ b ≤ high then
      readFollowing (bits * 64 + (b.toNat - 0x80)) following 0x80 0xBF bytes
    else (none, b :: bytes)

/-- The character that starts with the byte `b`, or `none` for a stretch that is no character, and
the bytes after it. -/
def readChar (b : UInt8) (bytes : List UInt8) : Option Char × List UInt8 :=
  match lead? b with
  | some lead =>
    let (code, rest) := readFollowing lead.bits lead.following lead.low lead.high bytes
    (code.map Char.ofNat, rest)
  | none => (none, bytes)

theorem readFollowing_length_le (bits following : Nat) (low high : UInt8) (bytes : List UInt8) :
    (readFollowing bits following low high bytes).2.length ≤ bytes.length := by
  induction following generalizing bits low high bytes with
  | zero => exact Nat.le_refl _
  | succ following ih =>
    cases bytes with
    | nil => exact Nat.le_refl _
    | cons b bytes =>
      simp only [readFollowing]
      split
      · exact Nat.le_succ_of_le (ih _ _ _ _)
      · exact Nat.le_refl _

theorem readChar_length_le (b : UInt8) (bytes : List UInt8) :
    (readChar b bytes).2.length ≤ bytes.length := by
  simp only [readChar]
  split
  · exact readFollowing_length_le _ _ _ _ _
  · exact Nat.le_refl _

/-- The characters of a sequence of bytes, with `none` for each stretch that is no character. -/
def readChars : List UInt8 → List (Option Char)
  | [] => []
  | b :: bytes => (readChar b bytes).1 :: readChars (readChar b bytes).2
termination_by bytes => bytes.length
decreasing_by
  have := readChar_length_le b bytes
  simp only [List.length_cons]
  omega

/-- The text of a sequence of bytes, if all of it is UTF-8. -/
def decode? (bytes : List UInt8) : Option String :=
  ((readChars bytes).mapM id).map String.ofList

/-- The text of a sequence of bytes, with a replacement character for what is no UTF-8. -/
def decodeLossy (bytes : List UInt8) : String :=
  String.ofList ((readChars bytes).map fun c ↦ c.getD '\uFFFD')

/-- The bytes of a text. -/
def encode (text : String) : List UInt8 := text.toList.flatMap String.utf8EncodeChar

end SchemaDiagram.Text
