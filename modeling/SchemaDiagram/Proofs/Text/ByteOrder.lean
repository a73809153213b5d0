import Mathlib.Data.String.Basic
import SchemaDiagram.Proofs.Text.Utf8

/-!
# The order of encoded texts

Texts are in the order of their bytes (`encode_lt_encode`): of two characters the greater one has
at least as many bytes, a character of more bytes has the greater first byte, and among the
characters of one length the bytes are the digits of the number, the first ones first.
-/

namespace SchemaDiagram.Text

variable {m n : Nat} {xs ys : List UInt8}

/-- Of two lists of bytes the one with the greater first byte is the greater one. -/
theorem ofNat_cons_lt_of_lt (hn : n < 256) (h : m < n) :
    UInt8.ofNat m :: xs < UInt8.ofNat n :: ys := by
  refine List.cons_lt_cons_iff.2 (.inl ?_)
  rw [UInt8.lt_iff_toNat_lt, toNat_ofNat (Nat.lt_trans h hn), toNat_ofNat hn]
  exact h

/-- Where the first bytes are the same, the others decide. -/
theorem ofNat_cons_lt (hn : n < 256) (hle : m ≤ n) (h : m = n → xs < ys) :
    UInt8.ofNat m :: xs < UInt8.ofNat n :: ys := by
  rcases Nat.lt_or_eq_of_le hle with hlt | rfl
  · exact ofNat_cons_lt_of_lt hn hlt
  · exact List.cons_lt_cons_iff.2 (.inr ⟨rfl, h rfl⟩)

/-- The bytes of a greater character are greater, whatever follows. -/
theorem utf8EncodeChar_append_lt {c d : Char} (h : c < d) (xs ys : List UInt8) :
    String.utf8EncodeChar c ++ xs < String.utf8EncodeChar d ++ ys := by
  have hlt : c.toNat < d.toNat := h
  have hd : d.toNat < 0x110000 := by
    have hvalid : d.toNat < 0xD800 ∨ 0xDFFF < d.toNat ∧ d.toNat < 0x110000 := d.valid
    omega
  simp only [String.utf8EncodeChar, show c.val.toNat = c.toNat from rfl,
    show d.val.toNat = d.toNat from rfl]
  generalize c.toNat = v at hlt
  generalize d.toNat = w at hlt hd
  -- different lengths: the first bytes decide, or the numbers are the other way round
  split_ifs <;> try first
    | omega
    | exact ofNat_cons_lt_of_lt (by omega) (by omega)
  · exact ofNat_cons_lt (by omega) (by omega) fun _ ↦ ofNat_cons_lt_of_lt (by omega) (by omega)
  · exact ofNat_cons_lt (by omega) (by omega) fun _ ↦ ofNat_cons_lt (by omega) (by omega) fun _ ↦
      ofNat_cons_lt_of_lt (by omega) (by omega)
  · exact ofNat_cons_lt (by omega) (by omega) fun _ ↦ ofNat_cons_lt (by omega) (by omega) fun _ ↦
      ofNat_cons_lt (by omega) (by omega) fun _ ↦ ofNat_cons_lt_of_lt (by omega) (by omega)

theorem flatMap_utf8EncodeChar_lt {text other : List Char} (h : text < other) :
    text.flatMap String.utf8EncodeChar < other.flatMap String.utf8EncodeChar := by
  induction text generalizing other with
  | nil =>
    cases other with
    | nil => simp at h
    | cons d other =>
      obtain ⟨b, bytes, hbytes, -⟩ := exists_utf8EncodeChar_eq_cons d []
      rw [List.flatMap_cons, hbytes]
      exact List.nil_lt_cons _ _
  | cons c text ih =>
    cases other with
    | nil => simp at h
    | cons d other =>
      rw [List.flatMap_cons, List.flatMap_cons]
      rcases List.cons_lt_cons_iff.1 h with hlt | ⟨rfl, hrest⟩
      · exact utf8EncodeChar_append_lt hlt _ _
      · exact List.append_left_lt (ih hrest)

/-- **A smaller text has smaller bytes.** -/
theorem encode_lt_encode {a b : String} (h : a < b) : encode a < encode b :=
  flatMap_utf8EncodeChar_lt (String.lt_iff_toList_lt.1 h)

end SchemaDiagram.Text
