import Mathlib.Data.String.Basic
import SchemaDiagram.Proofs.Text.Nesting

/-!
# Byte offsets

A place in a text can be given by the number of bytes in front of it. Not every number is a place:
a text can be cut between its characters only, and to cut it anywhere else is a fault. Here blocks
and parts are read by offsets. The readers never fail, and they find what is found without offsets
(`blockEnd_eq`, `splitParts_eq`).

## What the readers rest on

* The bytes of a front part of a text lead to a place of the text (`slice_append`).
* What a place is found at (a bracket, a comma, a quote) takes a single byte, so the place behind it
  is the next offset.
-/

namespace SchemaDiagram.Text.Offset

open String (utf8Len)

/-! ### Cuts -/

/-- What can go wrong when places are given by numbers. -/
inductive Fault where
  /-- A text is cut within a character or behind its end, or the end of a part is in front of its
  start. -/
  | cut (text : List Char) (start stop : Nat)
  /-- More is taken from a number than there is. -/
  | underflow
  deriving DecidableEq, Repr

/-- Whether a text can be cut at an offset. -/
def isPlace (text : List Char) (offset : Nat) : Bool :=
  String.Pos.Raw.isValid (String.ofList text) ⟨offset⟩

/-- The part of a text between two offsets. -/
def slice (text : List Char) (start stop : Nat) : Except Fault (List Char) :=
  if start ≤ stop ∧ isPlace text start ∧ isPlace text stop then
    .ok (String.Pos.Raw.extract (String.ofList text) ⟨start⟩ ⟨stop⟩).toList
  else .error (.cut text start stop)

/-- The part of a text from an offset on. -/
def sliceFrom (text : List Char) (start : Nat) : Except Fault (List Char) :=
  slice text start (utf8Len text)

/-- The difference of two numbers. -/
def minus (n k : Nat) : Except Fault Nat := if k ≤ n then .ok (n - k) else .error .underflow

theorem minus_add (n k : Nat) : minus (n + k) k = .ok n := by
  rw [minus, if_pos (Nat.le_add_left k n), Nat.add_sub_cancel]

/-- A text can be cut behind each of its front parts, and nowhere else. -/
theorem isPlace_iff {text : List Char} {offset : Nat} :
    isPlace text offset = true ↔ ∃ front back, text = front ++ back ∧ utf8Len front = offset := by
  rw [isPlace, String.Pos.Raw.isValid_eq_true_iff, String.Pos.Raw.isValid_iff_exists_append]
  constructor
  · rintro ⟨front, back, htext, hoffset⟩
    refine ⟨front.toList, back.toList, ?_, ?_⟩
    · simpa using congrArg String.toList htext
    · rw [String.utf8Len_toList]
      exact (congrArg String.Pos.Raw.byteIdx hoffset).symm
  · rintro ⟨front, back, rfl, rfl⟩
    exact ⟨.ofList front, .ofList back, String.ofList_append, (String.rawEndPos_ofList front).symm⟩

/-- A front part of a text that takes no more bytes than another is a front part of that one. -/
theorem prefix_of_utf8Len_le {text front front' : List Char} (h : front <+: text)
    (h' : front' <+: text) (hle : utf8Len front ≤ utf8Len front') : front <+: front' := by
  rcases List.prefix_or_prefix_of_prefix h h' with hprefix | ⟨behind, rfl⟩
  · exact hprefix
  · -- what is in front of the other takes no bytes, so they are the same
    rw [String.utf8Len_append] at hle
    have hbehind : behind = [] := String.utf8Len_eq_zero.1 (by omega)
    simp [hbehind]

theorem slice_append (front part back : List Char) :
    slice (front ++ part ++ back) (utf8Len front) (utf8Len front + utf8Len part) = .ok part := by
  have hstart : isPlace (front ++ part ++ back) (utf8Len front) = true :=
    isPlace_iff.2 ⟨front, part ++ back, List.append_assoc .., rfl⟩
  have hstop : isPlace (front ++ part ++ back) (utf8Len front + utf8Len part) = true :=
    isPlace_iff.2 ⟨front ++ part, back, rfl, String.utf8Len_append front part⟩
  rw [slice, if_pos ⟨Nat.le_add_right .., hstart, hstop⟩, String.extract_of_valid,
    String.toList_ofList]

/-- **A part is what stands between a front and a back.** All other cuts are faults. -/
theorem slice_eq_ok_iff {text part : List Char} {start stop : Nat} :
    slice text start stop = .ok part ↔ ∃ front back, text = front ++ part ++ back ∧
      utf8Len front = start ∧ utf8Len front + utf8Len part = stop := by
  constructor
  · intro h
    unfold slice at h
    split at h
    · next hplaces =>
      obtain ⟨hle, hstart, hstop⟩ := hplaces
      obtain ⟨front, behind, hfront, rfl⟩ := isPlace_iff.1 hstart
      obtain ⟨upTo, back, hupTo, rfl⟩ := isPlace_iff.1 hstop
      obtain ⟨middle, rfl⟩ := prefix_of_utf8Len_le ⟨behind, hfront.symm⟩ ⟨back, hupTo.symm⟩ hle
      have hmiddle := slice_append front middle back
      rw [String.utf8Len_append, hupTo, String.extract_of_valid, String.toList_ofList] at h
      cases h
      exact ⟨front, back, hupTo, rfl, (String.utf8Len_append front part).symm⟩
    · cases h
  · rintro ⟨front, back, rfl, rfl, rfl⟩
    exact slice_append front part back

-- an offset within a character is no place to cut
example : slice ['é', 'd'] 1 3 = .error (.cut ['é', 'd'] 1 3) := by decide +kernel

theorem slice_zero_append (part back : List Char) :
    slice (part ++ back) 0 (utf8Len part) = .ok part := by
  have h := slice_append [] part back
  rwa [String.utf8Len_nil, Nat.zero_add, List.nil_append] at h

theorem sliceFrom_append (front back : List Char) :
    sliceFrom (front ++ back) (utf8Len front) = .ok back := by
  have h := slice_append front back []
  rwa [List.append_nil, ← String.utf8Len_append] at h

/-- A text can be cut right behind a character of one byte. -/
theorem sliceFrom_append_cons {c : Char} (hc : c.utf8Size = 1) (front back : List Char) :
    sliceFrom (front ++ c :: back) (utf8Len front + 1) = .ok back := by
  have h := sliceFrom_append (front ++ [c]) back
  rwa [List.append_assoc, List.singleton_append, String.utf8Len_append, String.utf8Len_cons,
    String.utf8Len_nil, Nat.zero_add, hc] at h

/-! ### Searches -/

/-- The offset of the first place of a character. -/
def offsetOf? (c : Char) : List Char → Option Nat
  | [] => none
  | d :: rest => if d = c then some 0 else (offsetOf? c rest).map (d.utf8Size + ·)

theorem offsetOf?_append {c : Char} {front : List Char} (h : c ∉ front) (rest : List Char) :
    offsetOf? c (front ++ rest) = (offsetOf? c rest).map (utf8Len front + ·) := by
  induction front with
  | nil => simp
  | cons d front ih =>
    obtain ⟨hne, hfront⟩ := not_or.1 (mt List.mem_cons.2 h)
    rw [List.cons_append, offsetOf?, if_neg (Ne.symm hne), ih hfront, Option.map_map]
    congr 1
    funext n
    simp only [Function.comp_apply, String.utf8Len_cons]
    omega

theorem offsetOf?_eq_none {c : Char} {text : List Char} (h : c ∉ text) :
    offsetOf? c text = none := by
  have hnone := offsetOf?_append h []
  rwa [List.append_nil] at hnone

/-! ### Blocks -/

/-- The offset of the end of the block that starts a text, `index` bytes before which were read
already. -/
def blockEnd (n : Nesting) (index : Nat) : List Char → Option Nat
  | [] => none
  | c :: rest =>
    if n.surfacesAt c then some (index + c.utf8Size)
    else blockEnd (n.step c) (index + c.utf8Size) rest

/-- The end of a block is as many bytes on as the block takes. -/
theorem blockEnd_eq (n : Nesting) (index : Nat) (text : List Char) :
    blockEnd n index text = (n.takeBlock text).map fun found ↦ index + utf8Len found.1 := by
  induction text generalizing n index with
  | nil => rfl
  | cons c text ih =>
    rw [blockEnd, Nesting.takeBlock]
    split
    · simp
    · rw [ih, Option.map_map]
      congr 1
      funext found
      simp only [Function.comp_apply, String.utf8Len_cons]
      omega

/-- The block that starts a text, cut out at its end. -/
def block? (text : List Char) : Except Fault (Option (List Char)) :=
  match blockEnd {} 0 text with
  | none => .ok none
  | some stop => (slice text 0 stop).map some

theorem block?_eq (text : List Char) : block? text = .ok ((Text.block? text).map Prod.fst) := by
  rw [block?, blockEnd_eq, Text.block?]
  cases hblock : Nesting.takeBlock {} text with
  | none => rfl
  | some found =>
    obtain ⟨block, after⟩ := found
    rw [Nesting.eq_append_of_takeBlock hblock]
    simp only [Option.map_some, Nat.zero_add, slice_zero_append]
    rfl

/-! ### Parts -/

/-- The parts of a text between the commas at which no bracket is open. The text is read up to the
offset `index`, and the part that is being read starts at the offset `start`. -/
def splitParts (text : List Char) (n : Nesting) (start index : Nat) :
    List Char → Except Fault (List (List Char))
  | [] => do return [← sliceFrom text start]
  | c :: rest => do
    if c = ',' ∧ n.surfacesAt c then
      let part ← slice text start index
      return part :: (← splitParts text (n.step c) (index + 1) (index + c.utf8Size) rest)
    else splitParts text (n.step c) start (index + c.utf8Size) rest

/-- The parts of a text, trimmed; parts with nothing in them are left out. -/
def splitTopLevel (text : List Char) : Except Fault (List (List Char)) := do
  let parts ← splitParts text {} 0 0 text
  return (parts.map trim).filter fun part ↦ !part.isEmpty

theorem modifyHead_nil_append (parts : List (List Char)) : parts.modifyHead ([] ++ ·) = parts := by
  cases parts <;> rfl

/-- The reader has cut out what it has read, and goes on with the part that it has begun. -/
theorem splitParts_eq (n : Nesting) (before part rest : List Char) :
    splitParts (before ++ part ++ rest) n (utf8Len before) (utf8Len before + utf8Len part) rest =
      .ok ((n.split rest).modifyHead (part ++ ·)) := by
  induction rest generalizing n before part with
  | nil =>
    rw [splitParts, List.append_nil, sliceFrom_append, Nesting.split, List.modifyHead_cons,
      List.append_nil]
    rfl
  | cons c rest ih =>
    by_cases hc : c = ',' ∧ n.surfacesAt c = true
    · obtain ⟨rfl, hsurfaces⟩ := hc
      have hsplit : n.split (',' :: rest) = [] :: (n.step ',').split rest :=
        if_pos ⟨rfl, hsurfaces⟩
      have hbehind : splitParts (before ++ part ++ ',' :: rest) (n.step ',')
          (utf8Len before + utf8Len part + 1) (utf8Len before + utf8Len part + 1) rest =
            .ok ((n.step ',').split rest) := by
        have h := ih (n.step ',') (before ++ part ++ [',']) []
        rw [modifyHead_nil_append] at h
        simpa [show ','.utf8Size = 1 by decide, Nat.add_assoc] using h
      rw [splitParts, if_pos ⟨rfl, hsurfaces⟩, slice_append, hsplit, List.modifyHead_cons,
        List.append_nil, show ','.utf8Size = 1 by decide]
      show (do return part :: (← splitParts _ _ _ _ _)) = _
      rw [hbehind]
      rfl
    · have hgo : splitParts (before ++ part ++ c :: rest) (n.step c) (utf8Len before)
          (utf8Len before + utf8Len part + c.utf8Size) rest =
            .ok (((n.step c).split rest).modifyHead (part ++ [c] ++ ·)) := by
        have h := ih (n.step c) before (part ++ [c])
        simpa [Nat.add_assoc] using h
      rw [splitParts, if_neg hc, Nesting.split_cons_of_not hc, List.modifyHead_modifyHead, hgo]
      congr 2
      funext first
      exact List.append_assoc part [c] first

theorem splitTopLevel_eq (text : List Char) :
    splitTopLevel text = .ok (Text.splitTopLevel text) := by
  have h : splitParts text {} 0 0 text = .ok (Nesting.split {} text) := by
    have h := splitParts_eq {} [] [] text
    rwa [modifyHead_nil_append] at h
  rw [splitTopLevel, h]
  rfl

end SchemaDiagram.Text.Offset
