import Mathlib.Data.List.Basic
import SchemaDiagram.Text.UpperCase

/-!
# Upper case and ASCII

Two readings of case meet in a type: a tag is compared in the upper case of all scripts, while the
word `ARRAY` is recognised by its ASCII letters. They agree because a character above ASCII never
turns into letters of that word alone (`exists_mem_upperChar`): the ones that turn into ASCII
letters, such as `ß`, turn into other letters. So a text whose upper case is `ARRAY` is that word
in ASCII letters of either case (`map_toUpper_of_upper_eq_array`).
-/

namespace SchemaDiagram.Text

/-- The letters of `ARRAY`. -/
def arrayLetters : List Char := ['A', 'R', 'Y']

theorem toNat_of_ofNat_eq {n : Nat} {c : Char} (hc : c ≠ '\x00') (h : Char.ofNat n = c) :
    n = c.toNat := by
  by_cases hvalid : n.isValidChar
  · rw [← h, Char.ofNat, dif_pos hvalid]
    rfl
  · rw [Char.ofNat, dif_neg hvalid] at h
    exact absurd h.symm hc

/-- A code point beyond the letters of `ARRAY` is none of them. -/
theorem ofNat_not_mem_arrayLetters {n : Nat} (h : n ∉ arrayLetters.map Char.toNat) :
    Char.ofNat n ∉ arrayLetters := by
  intro hmem
  have hnul : Char.ofNat n ≠ '\x00' := fun heq ↦ absurd (heq ▸ hmem) (by decide)
  exact h (toNat_of_ofNat_eq hnul rfl ▸ List.mem_map_of_mem hmem)

/-- Along a run the upper cases go up from that of the first member. Either they lie beyond `Y`, or
the run has one member, with another letter as its upper case. -/
theorem not_mem_arrayLetters_of_upperSingle? {code upper : Nat}
    (h : upperSingle? code = some upper) : upper ∉ arrayLetters.map Char.toNat := by
  have hruns : ∀ run ∈ upperRuns, 0x59 < run.2.2.2 ∨
      run.1 = run.2.1 ∧ run.2.2.2 ∉ arrayLetters.map Char.toNat := by decide +kernel
  obtain ⟨⟨first, last, step, target⟩, hrun, hupper⟩ := List.exists_of_findSome?_eq_some h
  simp only [Option.ite_none_right_eq_some, Option.some.injEq] at hupper
  obtain ⟨⟨hfirst, hlast, -⟩, rfl⟩ := hupper
  rcases hruns _ hrun with hbeyond | ⟨hone, hother⟩
  · intro hmem
    have hle : ∀ n ∈ arrayLetters.map Char.toNat, n ≤ 0x59 := by decide
    have := hle _ hmem
    simp only at hbeyond
    omega
  · simp only at hone hother
    obtain rfl : code = first := by omega
    rwa [Nat.sub_self, Nat.add_zero]

/-- **The upper case of a character above ASCII does not consist of the letters of `ARRAY`.** -/
theorem exists_mem_upperChar {c : Char} (hc : 0x80 ≤ c.toNat) :
    ∃ d ∈ upperChar c, d ∉ arrayLetters := by
  have hexpansions : ∀ expansion ∈ upperExpansions,
      ∃ code ∈ expansion.2, code ∉ arrayLetters.map Char.toNat := by decide +kernel
  rw [upperChar, if_neg (Nat.not_lt.2 hc)]
  split
  · next codes hcodes =>
    obtain ⟨before, after, heq, -⟩ := List.lookup_eq_some_iff.1 hcodes
    have hmem : (c.toNat, codes) ∈ upperExpansions := by simp [heq]
    obtain ⟨code, hcode, hother⟩ := hexpansions _ hmem
    exact ⟨_, List.mem_map_of_mem hcode, ofNat_not_mem_arrayLetters hother⟩
  · refine ⟨_, List.mem_singleton_self _, ?_⟩
    cases hsingle : upperSingle? c.toNat with
    | none =>
      intro hmem
      have hascii : arrayLetters.all (·.toNat < 0x80) := by decide
      exact absurd (of_decide_eq_true (List.all_eq_true.1 hascii c hmem)) (Nat.not_lt.2 hc)
    | some upper => exact ofNat_not_mem_arrayLetters (not_mem_arrayLetters_of_upperSingle? hsingle)

theorem upperChar_of_lt {c : Char} (hc : c.toNat < 0x80) : upperChar c = [c.toUpper] := by
  rw [upperChar, if_pos hc]

/-- **Only ASCII letters have the upper case `ARRAY`.** -/
theorem map_toUpper_of_upper_eq_array {word : List Char}
    (h : upper (String.ofList word) = "ARRAY") :
    word.map Char.toUpper = ['A', 'R', 'R', 'A', 'Y'] := by
  have hupper : word.flatMap upperChar = ['A', 'R', 'R', 'A', 'Y'] := by
    rw [upper, String.toList_ofList] at h
    rw [← String.toList_ofList (l := word.flatMap upperChar), h]
    decide
  have hletters : ∀ d ∈ word.flatMap upperChar, d ∈ arrayLetters := by
    rw [hupper]
    simp [arrayLetters]
  have hascii : ∀ c ∈ word, c.toNat < 0x80 := by
    intro c hc
    by_contra habove
    obtain ⟨d, hd, hother⟩ := exists_mem_upperChar (Nat.not_lt.1 habove)
    exact hother (hletters d (List.mem_flatMap.2 ⟨c, hc, hd⟩))
  rw [← hupper, List.map_eq_flatMap]
  exact List.flatMap_congr fun c hc ↦ (upperChar_of_lt (hascii c hc)).symm

end SchemaDiagram.Text
