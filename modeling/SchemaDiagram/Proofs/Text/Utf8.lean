import Mathlib.Tactic.IntervalCases
import SchemaDiagram.Text.Utf8

/-!
# Reading a text back from its bytes

Decoding undoes encoding (`decode?_encode`). The first byte of a character says how many bytes
follow, and each of those holds six bits more (`readFollowing_cons`). So all that is to be checked
is that no byte is outside the range that the first one allows for it: a character is encoded in as
few bytes as possible, and its number is none of a surrogate and not beyond the last code point
(`lead?_three`, `lead?_four`).
-/

namespace SchemaDiagram.Text

variable {bits following k l m n : Nat} {low high : UInt8}

theorem toNat_ofNat (h : n < 256) : (UInt8.ofNat n).toNat = n := UInt8.toNat_ofNat_of_lt' h

/-! ### Bytes that follow -/

/-- A byte that goes on with a character adds its six bits. -/
theorem readFollowing_cons (hk : k < 64) (hlow : low.toNat ≤ k + 128)
    (hhigh : k + 128 ≤ high.toNat) (bytes : List UInt8) :
    readFollowing bits (following + 1) low high (UInt8.ofNat (k + 128) :: bytes) =
      readFollowing (bits * 64 + k) following 0x80 0xBF bytes := by
  have hnat : (UInt8.ofNat (k + 128)).toNat = k + 128 := toNat_ofNat (by omega)
  have hrange : low ≤ UInt8.ofNat (k + 128) ∧ UInt8.ofNat (k + 128) ≤ high := by
    rw [UInt8.le_iff_toNat_le, UInt8.le_iff_toNat_le, hnat]
    exact ⟨hlow, hhigh⟩
  rw [readFollowing, if_pos hrange, hnat, Nat.add_sub_cancel]

theorem readFollowing_one (hk : k < 64) (hlow : low.toNat ≤ k + 128)
    (hhigh : k + 128 ≤ high.toNat) (rest : List UInt8) :
    readFollowing bits 1 low high (UInt8.ofNat (k + 128) :: rest) =
      (some (bits * 64 + k), rest) := by
  rw [readFollowing_cons hk hlow hhigh, readFollowing]

/-- Only the range of the first byte that follows may be narrower. -/
theorem readFollowing_two (hk : k < 64) (hlow : low.toNat ≤ k + 128)
    (hhigh : k + 128 ≤ high.toNat) (hl : l < 64) (rest : List UInt8) :
    readFollowing bits 2 low high (UInt8.ofNat (k + 128) :: UInt8.ofNat (l + 128) :: rest) =
      (some ((bits * 64 + k) * 64 + l), rest) := by
  have hlast : l + 128 ≤ (0xBF : UInt8).toNat := show l + 128 ≤ 191 by omega
  rw [readFollowing_cons hk hlow hhigh, readFollowing_one hl (Nat.le_add_left _ _) hlast]

theorem readFollowing_three (hk : k < 64) (hlow : low.toNat ≤ k + 128)
    (hhigh : k + 128 ≤ high.toNat) (hl : l < 64) (hm : m < 64) (rest : List UInt8) :
    readFollowing bits 3 low high
        (UInt8.ofNat (k + 128) :: UInt8.ofNat (l + 128) :: UInt8.ofNat (m + 128) :: rest) =
      (some (((bits * 64 + k) * 64 + l) * 64 + m), rest) := by
  have hnext : l + 128 ≤ (0xBF : UInt8).toNat := show l + 128 ≤ 191 by omega
  rw [readFollowing_cons hk hlow hhigh, readFollowing_two hl (Nat.le_add_left _ _) hnext hm]

/-- The least value of a byte that follows, which is greater in one case. -/
theorem toNat_low_le {P : Prop} [Decidable P] (h : P → low.toNat ≤ k + 128) :
    (if P then low else 0x80).toNat ≤ k + 128 := by
  split
  · next hP => exact h hP
  · exact Nat.le_add_left 128 k

/-- The greatest value of a byte that follows, which is less in one case. -/
theorem le_toNat_high {P : Prop} [Decidable P] (hk : k < 64) (h : P → k + 128 ≤ high.toNat) :
    k + 128 ≤ (if P then high else 0xBF).toNat := by
  split
  · next hP => exact h hP
  · exact (show k + 128 ≤ 191 by omega)

/-! ### First bytes -/

theorem lead?_one (h : n < 128) : lead? (UInt8.ofNat n) = some { bits := n, following := 0 } := by
  have hnat := toNat_ofNat (show n < 256 by omega)
  simp [lead?, UInt8.lt_iff_toNat_lt, hnat, h]

theorem lead?_two (hlow : 2 ≤ n) (hhigh : n < 32) :
    lead? (UInt8.ofNat (n + 192)) = some { bits := n, following := 1 } := by
  interval_cases n <;> rfl

/-- The narrower ranges keep out overlong forms and surrogates. -/
theorem lead?_three (h : n < 16) : lead? (UInt8.ofNat (n + 224)) =
    some { bits := n, following := 2, low := if n = 0 then 0xA0 else 0x80,
           high := if n = 13 then 0x9F else 0xBF } := by
  interval_cases n <;> rfl

/-- The narrower ranges keep out overlong forms and numbers beyond the last code point. -/
theorem lead?_four (h : n ≤ 4) : lead? (UInt8.ofNat (n + 240)) =
    some { bits := n, following := 3, low := if n = 0 then 0x90 else 0x80,
           high := if n = 4 then 0x8F else 0xBF } := by
  interval_cases n <;> rfl

/-! ### Characters and texts -/

/-- **The bytes of a character are read as the character**, and no byte behind them is looked at. -/
theorem exists_utf8EncodeChar_eq_cons (c : Char) (rest : List UInt8) :
    ∃ b bytes, String.utf8EncodeChar c = b :: bytes ∧
      readChar b (bytes ++ rest) = (some c, rest) := by
  have hvalid : c.toNat < 0xD800 ∨ 0xDFFF < c.toNat ∧ c.toNat < 0x110000 := c.valid
  have hread {b : UInt8} {bytes : List UInt8} {lead : Lead} {code : Nat}
      (hlead : lead? b = some lead) (hcode : code = c.toNat) (h : readFollowing lead.bits
        lead.following lead.low lead.high bytes = (some code, rest)) :
      readChar b bytes = (some c, rest) := by
    simp only [readChar, hlead, h, hcode, Option.map_some, Char.ofNat_toNat]
  simp only [String.utf8EncodeChar, show c.val.toNat = c.toNat from rfl]
  generalize c.toNat = v at hvalid hread
  -- the lengths of the encoding are those of the number in blocks of six bits
  split
  · exact ⟨_, [], rfl, hread (lead?_one (by omega)) rfl rfl⟩
  split
  · have hlead := lead?_two (show 2 ≤ v / 64 % 32 by omega) (by omega)
    have hcode : v / 64 % 32 * 64 + v % 64 = v := by omega
    exact ⟨_, [_], rfl, hread hlead hcode (readFollowing_one (by omega) (Nat.le_add_left _ _)
      (show v % 64 + 128 ≤ 191 by omega) rest)⟩
  split
  · have hlead := lead?_three (show v / 4096 % 16 < 16 by omega)
    have hcode : (v / 4096 % 16 * 64 + v / 64 % 64) * 64 + v % 64 = v := by omega
    have hlow : v / 4096 % 16 = 0 → 160 ≤ v / 64 % 64 + 128 := by omega
    have hhigh : v / 4096 % 16 = 13 → v / 64 % 64 + 128 ≤ 159 := by omega
    exact ⟨_, [_, _], rfl, hread hlead hcode (readFollowing_two (by omega)
      (toNat_low_le hlow) (le_toNat_high (by omega) hhigh) (by omega) rest)⟩
  · have hlead := lead?_four (show v / 262144 % 8 ≤ 4 by omega)
    have hcode : ((v / 262144 % 8 * 64 + v / 4096 % 64) * 64 + v / 64 % 64) * 64 + v % 64 = v := by
      omega
    have hlow : v / 262144 % 8 = 0 → 144 ≤ v / 4096 % 64 + 128 := by omega
    have hhigh : v / 262144 % 8 = 4 → v / 4096 % 64 + 128 ≤ 143 := by omega
    exact ⟨_, [_, _, _], rfl, hread hlead hcode (readFollowing_three (by omega)
      (toNat_low_le hlow) (le_toNat_high (by omega) hhigh) (by omega) (by omega) rest)⟩

theorem readChars_flatMap_utf8EncodeChar (text : List Char) :
    readChars (text.flatMap String.utf8EncodeChar) = text.map some := by
  induction text with
  | nil => rw [List.flatMap_nil, readChars, List.map_nil]
  | cons c text ih =>
    obtain ⟨b, bytes, hbytes, hread⟩ :=
      exists_utf8EncodeChar_eq_cons c (text.flatMap String.utf8EncodeChar)
    rw [List.flatMap_cons, hbytes, List.cons_append, readChars, hread, ih, List.map_cons]

/-- **Decoding undoes encoding.** -/
theorem decode?_encode (text : String) : decode? (encode text) = some text := by
  have hall (chars : List Char) : (chars.map some).mapM id = some chars := by
    induction chars with
    | nil => rfl
    | cons c chars ih => simp [List.mapM_cons, ih]
  rw [decode?, encode, readChars_flatMap_utf8EncodeChar, hall, Option.map_some,
    String.ofList_toList]

end SchemaDiagram.Text
