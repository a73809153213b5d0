import SchemaDiagram.Text.Token

/-!
# Tokens with white space between them

A text that is written token by token, with white space between the tokens, is read back token by
token. `Gap` is that white space and carries the proof that it is nothing else; each reader has one
lemma that says what it answers on a text that starts the way it expects.

## Searching

The readers that look for the leftmost place skip what stands before it. `findBefore_append` says
when a front part can be skipped: at none of its places, where no word goes on, does the reader
answer. Two kinds of front part have that property for every reader that starts with a word: texts
without word characters, and a word itself, of which only the first place is tried.
-/

namespace SchemaDiagram.Text

/-! ### Classes of characters -/

/-- The code points of the white space. -/
def blankCodes : List Nat :=
  [0x9, 0xA, 0xB, 0xC, 0xD, 0x20, 0x85, 0xA0, 0x1680, 0x2000, 0x2001, 0x2002, 0x2003, 0x2004,
   0x2005, 0x2006, 0x2007, 0x2008, 0x2009, 0x200A, 0x2028, 0x2029, 0x202F, 0x205F, 0x3000]

theorem mem_blankCodes_of_isBlank {c : Char} (h : isBlank c = true) : c.toNat ∈ blankCodes := by
  simp only [isBlank, Bool.or_eq_true, Bool.and_eq_true, decide_eq_true_eq, beq_iff_eq] at h
  simp only [blankCodes, List.mem_cons, List.not_mem_nil, or_false]
  omega

/-- No white space is a word character: of the 25 characters none is in the tables. -/
theorem isWordChar_of_isBlank {c : Char} (h : isBlank c = true) : isWordChar c = false := by
  have htable : ∀ code ∈ blankCodes, isWordChar (Char.ofNat code) = false := by decide +kernel
  simpa using htable c.toNat (mem_blankCodes_of_isBlank h)

theorem isBlank_of_isWordChar {c : Char} (h : isWordChar c = true) : isBlank c = false := by
  refine Bool.eq_false_iff.2 fun hblank ↦ ?_
  rw [isWordChar_of_isBlank hblank] at h
  exact Bool.false_ne_true h

theorem eq_of_isQuote {c : Char} (h : isQuote c = true) : c = '"' ∨ c = '\'' ∨ c = '\x60' := by
  simpa [isQuote, or_assoc] using h

theorem isWordChar_of_isQuote {c : Char} (h : isQuote c = true) : isWordChar c = false := by
  rcases eq_of_isQuote h with rfl | rfl | rfl <;> decide

theorem isQuote_of_isWordChar {c : Char} (h : isWordChar c = true) : isQuote c = false := by
  refine Bool.eq_false_iff.2 fun hquote ↦ ?_
  rw [isWordChar_of_isQuote hquote] at h
  exact Bool.false_ne_true h

theorem isBlank_of_isQuote {c : Char} (h : isQuote c = true) : isBlank c = false := by
  rcases eq_of_isQuote h with rfl | rfl | rfl <;> decide

theorem isQuote_of_isBlank {c : Char} (h : isBlank c = true) : isQuote c = false := by
  refine Bool.eq_false_iff.2 fun hquote ↦ ?_
  rw [isBlank_of_isQuote hquote] at h
  exact Bool.false_ne_true h

theorem isWordChar_of_isIdentifierStart {c : Char} (h : isIdentifierStart c = true) :
    isWordChar c = true := by
  simp only [isIdentifierStart, Bool.or_eq_true, beq_iff_eq] at h
  rcases h with h | rfl
  · have hascii : c.toNat < 0x80 := by
      change (decide (c.val ≥ 'A'.val ∧ c.val ≤ 'Z'.val) ||
        (decide (c.val ≥ 'a'.val) && decide (c.val ≤ 'z'.val))) = true at h
      simp only [Bool.or_eq_true, Bool.and_eq_true, decide_eq_true_eq, ge_iff_le,
        UInt32.le_iff_toNat_le] at h
      have hval : c.toNat = c.val.toNat := rfl
      simp at h
      omega
    simp [isWordChar, hascii, Char.isAlphanum, h]
  · decide

/-! ### White space between tokens -/

/-- White space between two tokens. -/
structure Gap where
  /-- The white space, which may be empty. -/
  text : List Char
  /-- There is nothing else in it. -/
  isBlank_of_mem : ∀ c ∈ text, isBlank c = true

namespace Gap

/-- No white space. -/
def none : Gap := ⟨[], by simp⟩

/-- One space. -/
def space : Gap := ⟨[' '], List.forall_mem_singleton.2 (by decide)⟩

variable (g : Gap)

theorem not_mem {c : Char} (h : isBlank c = false) : c ∉ g.text := fun hc ↦
  Bool.false_ne_true (h.symm.trans (g.isBlank_of_mem c hc))

theorem isWordChar_of_mem : ∀ c ∈ g.text, isWordChar c = false := fun c hc ↦
  isWordChar_of_isBlank (g.isBlank_of_mem c hc)

theorem isIdentifierStart_of_mem : ∀ c ∈ g.text, isIdentifierStart c = false := fun c hc ↦ by
  refine Bool.eq_false_iff.2 fun hstart ↦ Bool.false_ne_true ?_
  rw [← g.isWordChar_of_mem c hc, isWordChar_of_isIdentifierStart hstart]

/-- Behind the white space stands one character, so another one stands further behind. -/
theorem exists_of_append_eq {c d : Char} {rest front more : List Char} (hne : d ≠ c)
    (hblank : isBlank d = false) (h : g.text ++ c :: rest = front ++ d :: more) :
    ∃ mid, front = g.text ++ c :: mid ∧ rest = mid ++ d :: more := by
  rcases List.append_eq_append_iff.1 h with ⟨mid, rfl, hmid⟩ | ⟨mid, htext, hmid⟩
  · cases mid with
    | nil => exact absurd (List.cons.inj hmid).1.symm hne
    | cons e mid =>
      obtain ⟨rfl, rfl⟩ := List.cons.inj hmid
      exact ⟨mid, rfl, rfl⟩
  · refine absurd ?_ (g.not_mem hblank)
    cases mid with
    | nil => exact absurd (List.cons.inj hmid).1 hne
    | cons e mid =>
      obtain ⟨rfl, -⟩ := List.cons.inj hmid
      rw [htext]
      exact List.mem_append_right front List.mem_cons_self

end Gap

theorem skipBlanks_cons {c : Char} (h : isBlank c = false) (rest : List Char) :
    skipBlanks (c :: rest) = c :: rest := by
  simp [skipBlanks, h]

theorem skipBlanks_gap (g : Gap) (rest : List Char) :
    skipBlanks (g.text ++ rest) = skipBlanks rest :=
  List.dropWhile_append_of_pos g.isBlank_of_mem

/-- White space and what comes after it, up to the first character that is something else. -/
theorem skipBlanks_gap_cons (g : Gap) {c : Char} (h : isBlank c = false) (rest : List Char) :
    skipBlanks (g.text ++ c :: rest) = c :: rest := by
  rw [skipBlanks_gap, skipBlanks_cons h]

/-- Every text is white space and a text that does not start with any. -/
theorem exists_gap_append_skipBlanks (text : List Char) :
    ∃ g : Gap, text = g.text ++ skipBlanks text := by
  refine ⟨⟨text.takeWhile isBlank, fun c hc ↦ ?_⟩, List.takeWhile_append_dropWhile.symm⟩
  exact List.all_eq_true.1 List.all_takeWhile c hc

theorem isBlank_of_skipBlanks_eq_cons {text rest : List Char} {c : Char}
    (h : skipBlanks text = c :: rest) : isBlank c = false := by
  have hdrop : text.dropWhile isBlank = c :: rest := h
  have hne : text.dropWhile isBlank ≠ [] := by
    rw [hdrop]
    exact List.cons_ne_nil c rest
  have hhead := List.head_dropWhile_not isBlank hne
  simpa only [hdrop, List.head_cons] using hhead

/-! ### Trimming -/

theorem trimEnd_append_gap (text : List Char) (g : Gap) :
    trimEnd (text ++ g.text) = trimEnd text := by
  have hg : ∀ c ∈ g.text.reverse, isBlank c = true := fun c hc ↦
    g.isBlank_of_mem c (List.mem_reverse.1 hc)
  rw [trimEnd, List.reverse_append, List.dropWhile_append_of_pos hg, trimEnd]

/-- Only what stands behind the last character that is no white space can be trimmed. -/
theorem trimEnd_append_cons (text : List Char) {c : Char} (h : isBlank c = false)
    (rest : List Char) : trimEnd (text ++ c :: rest) = text ++ c :: trimEnd rest := by
  simp only [trimEnd, List.reverse_append, List.reverse_cons, List.append_assoc,
    List.singleton_append, List.dropWhile_append]
  cases hrest : rest.reverse.dropWhile isBlank <;> simp [h]

theorem exists_trimEnd_append_gap (text : List Char) :
    ∃ g : Gap, text = trimEnd text ++ g.text := by
  refine ⟨⟨(text.reverse.takeWhile isBlank).reverse, fun c hc ↦ ?_⟩, ?_⟩
  · exact List.all_eq_true.1 List.all_takeWhile c (List.mem_reverse.1 hc)
  · rw [trimEnd, ← List.reverse_append, List.takeWhile_append_dropWhile, List.reverse_reverse]

theorem trim_gap (g : Gap) : trim g.text = [] := by
  have hskip : skipBlanks g.text = skipBlanks [] := by simpa using skipBlanks_gap g []
  rw [trim, hskip]
  rfl

theorem trim_gap_append (g : Gap) (text : List Char) : trim (g.text ++ text) = trim text := by
  rw [trim, skipBlanks_gap, trim]

theorem trim_append_gap (text : List Char) (g : Gap) : trim (text ++ g.text) = trim text := by
  obtain ⟨front, hfront⟩ := exists_gap_append_skipBlanks text
  rw [hfront, List.append_assoc, trim_gap_append, trim_gap_append]
  rcases hskip : skipBlanks text with - | ⟨c, rest⟩
  · rw [List.nil_append, trim_gap]
    rfl
  · -- the first character that is left is not white space, so the front is trimmed already
    have hc := isBlank_of_skipBlanks_eq_cons hskip
    rw [trim, trim, List.cons_append, skipBlanks_cons hc, skipBlanks_cons hc,
      ← List.cons_append, trimEnd_append_gap]

theorem trim_trimEnd (text : List Char) : trim (trimEnd text) = trim text := by
  obtain ⟨g, hg⟩ := exists_trimEnd_append_gap text
  calc trim (trimEnd text) = trim (trimEnd text ++ g.text) := (trim_append_gap _ g).symm
    _ = trim text := by rw [← hg]

/-! ### Tokens -/

theorem expectToken_gap (g : Gap) {c : Char} (h : isBlank c = false) (rest : List Char) :
    expectToken c (g.text ++ c :: rest) = some rest := by
  rw [expectToken, skipBlanks_gap_cons g h, expect_eq_some_iff]

theorem expectToken_cons {c : Char} (h : isBlank c = false) (rest : List Char) :
    expectToken c (c :: rest) = some rest :=
  expectToken_gap .none h rest

/-- Another character stands where the token is expected. -/
theorem expectToken_gap_ne (g : Gap) {c d : Char} (h : isBlank d = false) (hne : d ≠ c)
    (rest : List Char) : expectToken c (g.text ++ d :: rest) = none := by
  rw [expectToken, skipBlanks_gap_cons g h, expect, if_neg hne]

/-- What a token is read from: white space, the token, and the rest. -/
theorem eq_gap_append_of_expectToken {c : Char} {text rest : List Char}
    (h : expectToken c text = some rest) : ∃ g : Gap, text = g.text ++ c :: rest := by
  obtain ⟨g, hg⟩ := exists_gap_append_skipBlanks text
  rw [expectToken, expect_eq_some_iff] at h
  exact ⟨g, by rw [hg, h]⟩

theorem expect_self (c : Char) (rest : List Char) : expect c (c :: rest) = some rest :=
  expect_eq_some_iff.2 rfl

theorem expectWord_append (word rest : List Char) : expectWord word (word ++ rest) = some rest :=
  expectWord_eq_some_iff.2 rfl

theorem expectWord_cons_eq_none {c d : Char} (h : d ≠ c) (word rest : List Char) :
    expectWord (c :: word) (d :: rest) = none := by
  rw [expectWord, expect, if_neg h, Option.bind_none]

/-! ### Runs of characters -/

/-- A run of characters of some kind ends where the rest does not go on with it. -/
theorem span_run {p : Char → Bool} {run rest : List Char} (hrun : ∀ c ∈ run, p c = true)
    (hrest : ∀ c ∈ rest.head?, p c = false) :
    (run ++ rest).takeWhile p = run ∧ (run ++ rest).dropWhile p = rest := by
  rw [List.takeWhile_append_of_pos hrun, List.dropWhile_append_of_pos hrun]
  cases rest with
  | nil => simp
  | cons c rest => simp [hrest c rfl]

/-- A run of other characters ends at the first place of a character. -/
theorem span_ne {c : Char} {run : List Char} (h : c ∉ run) (rest : List Char) :
    (run ++ c :: rest).takeWhile (· != c) = run ∧
      (run ++ c :: rest).dropWhile (· != c) = c :: rest := by
  refine span_run (fun d hd ↦ bne_iff_ne.2 fun heq ↦ h (heq ▸ hd)) ?_
  rintro d ⟨⟩
  exact bne_self_eq_false c

/-! ### Words -/

theorem startsWord_cons (c : Char) (rest : List Char) : startsWord (c :: rest) = isWordChar c :=
  rfl

theorem isWordChar_of_mem_head? {rest : List Char} (h : startsWord rest = false) :
    ∀ c ∈ rest.head?, isWordChar c = false := by
  cases rest with
  | nil => nofun
  | cons c rest =>
    rintro d ⟨⟩
    exact h

/-- No word starts with white space, and none with a character of no word behind it. -/
theorem startsWord_gap_cons (g : Gap) {c : Char} (h : isWordChar c = false) (rest : List Char) :
    startsWord (g.text ++ c :: rest) = false := by
  rcases hg : g.text with - | ⟨d, more⟩
  · exact h
  · exact g.isWordChar_of_mem d (by rw [hg]; exact List.mem_cons_self)

/-- A word that ends where the rest does not go on with a word character is cut off whole. -/
theorem takeWhile_word {word rest : List Char} (hword : ∀ c ∈ word, isWordChar c = true)
    (hrest : startsWord rest = false) : (word ++ rest).takeWhile isWordChar = word :=
  (span_run hword (isWordChar_of_mem_head? hrest)).1

theorem dropWhile_word {word rest : List Char} (hword : ∀ c ∈ word, isWordChar c = true)
    (hrest : startsWord rest = false) : (word ++ rest).dropWhile isWordChar = rest :=
  (span_run hword (isWordChar_of_mem_head? hrest)).2

/-- Two words are the same if a text starts with both and neither goes on. -/
theorem eq_of_word_append {word other rest rest' : List Char}
    (hword : ∀ c ∈ word, isWordChar c = true) (hother : ∀ c ∈ other, isWordChar c = true)
    (hrest : startsWord rest = false) (hrest' : startsWord rest' = false)
    (h : word ++ rest = other ++ rest') : word = other := by
  have hcut := congrArg (List.takeWhile isWordChar) h
  rwa [takeWhile_word hword hrest, takeWhile_word hother hrest'] at hcut

theorem word?_append {word rest : List Char} (hne : word ≠ [])
    (hword : ∀ c ∈ word, isWordChar c = true) (hrest : startsWord rest = false) :
    word? (word ++ rest) = some (word, rest) := by
  obtain ⟨c, more, rfl⟩ := List.exists_cons_of_ne_nil hne
  have hstart : startsWord (c :: more ++ rest) = true := hword c List.mem_cons_self
  rw [word?, if_pos hstart, takeWhile_word hword hrest, dropWhile_word hword hrest]

/-- An identifier: an ASCII letter or an underscore, and any word characters after it. -/
structure IsIdentifier (name : List Char) : Prop where
  /-- It has a first character, with which an identifier may start. -/
  start : ∃ c rest, name = c :: rest ∧ isIdentifierStart c = true
  /-- It is a word. -/
  isWordChar_of_mem : ∀ c ∈ name, isWordChar c = true

theorem identifier?_append {name rest : List Char} (h : IsIdentifier name)
    (hrest : startsWord rest = false) : identifier? (name ++ rest) = some (name, rest) := by
  obtain ⟨⟨c, more, rfl, hc⟩, hword⟩ := h
  have hmore : ∀ d ∈ more, isWordChar d = true := fun d hd ↦ hword d (List.mem_cons_of_mem c hd)
  rw [List.cons_append, identifier?, if_pos hc, takeWhile_word hmore hrest,
    dropWhile_word hmore hrest]

/-- An identifier stands behind white space. -/
theorem skipBlanks_gap_identifier (g : Gap) {name : List Char} (h : IsIdentifier name)
    (rest : List Char) : skipBlanks (g.text ++ (name ++ rest)) = name ++ rest := by
  obtain ⟨c, more, rfl, hc⟩ := h.start
  exact skipBlanks_gap_cons g
    (isBlank_of_isWordChar (isWordChar_of_isIdentifierStart hc)) (more ++ rest)

/-! ### Searching at the starts of words -/

/-- Whether a word may go on behind a text, before which one may go on or not. -/
def wordGoesOn : Bool → List Char → Bool
  | afterWord, [] => afterWord
  | _, c :: rest => wordGoesOn (isWordChar c) rest

theorem wordGoesOn_append (afterWord : Bool) (text other : List Char) :
    wordGoesOn afterWord (text ++ other) = wordGoesOn (wordGoesOn afterWord text) other := by
  induction text generalizing afterWord with
  | nil => rfl
  | cons c text ih => exact ih (isWordChar c)

theorem wordGoesOn_concat (afterWord : Bool) (text : List Char) (c : Char) :
    wordGoesOn afterWord (text ++ [c]) = isWordChar c :=
  wordGoesOn_append afterWord text [c]

/-- No word goes on behind a text that is empty or ends with a character of no word. -/
theorem wordGoesOn_eq_false_iff (text : List Char) :
    wordGoesOn false text = false ↔ ∀ c ∈ text.getLast?, isWordChar c = false := by
  rcases List.eq_nil_or_concat text with rfl | ⟨front, c, rfl⟩
  · simp [wordGoesOn]
  · simp [wordGoesOn_concat]

/-- **What a search may skip.** The reader answers at none of the places of the front part where no
word goes on, and none of its characters stops the search. -/
theorem findBefore_append {α : Type} {stop : Char → Bool} {read : List Char → Option α}
    {afterWord : Bool} {front rest : List Char} (hstop : ∀ c ∈ front, stop c = false)
    (hread : ∀ before behind, front = before ++ behind → behind ≠ [] →
      wordGoesOn afterWord before = false → read (behind ++ rest) = none) :
    findBefore stop read afterWord (front ++ rest) =
      findBefore stop read (wordGoesOn afterWord front) rest := by
  induction front generalizing afterWord with
  | nil => rfl
  | cons c front ih =>
    have hhere : (if afterWord then none else read (c :: (front ++ rest))) = none := by
      cases afterWord with
      | true => rfl
      | false => exact hread [] (c :: front) rfl (List.cons_ne_nil c front) rfl
    rw [List.cons_append, findBefore, hhere]
    simp only [hstop c List.mem_cons_self, Bool.false_eq_true, if_false]
    refine ih (fun d hd ↦ hstop d (List.mem_cons_of_mem c hd)) fun before behind heq hne hword ↦ ?_
    exact hread (c :: before) behind (by rw [heq, List.cons_append]) hne hword

end SchemaDiagram.Text
