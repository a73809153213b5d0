import Mathlib.Tactic.IntervalCases
import SchemaDiagram.Proofs.Text.Token
import SchemaDiagram.Toml.Quoted

/-!
# Reading a string back

A string is read back as it was written, whatever its characters are and in whichever style it was
written (`string?_writeString`). On one line this is a matter of one character after the other: each
one stands for itself or for its escape (`isWritten_basicChar`). Between tripled quotes the quotes
of the string itself may run into the closing ones. There are never more than two of them in a row,
so a run of three or more is at the end, and what it has beyond three belongs to the string
(`closingQuotes?_append`).
-/

namespace SchemaDiagram.Toml

open Text

variable {c d quote : Char} {text rest after : List Char}

/-! ### Characters and escapes -/

theorem hexValue?_upperHexDigit {n : Nat} (h : n < 16) : hexValue? (upperHexDigit n) = some n := by
  interval_cases n <;> rfl

/-- Two digits after two zeros are read as the character whose number they are. -/
theorem codePoint?_hex (h : c.toNat < 256) (rest : List Char) :
    codePoint? 4 ('0' :: '0' :: upperHexDigit (c.toNat / 16) :: upperHexDigit (c.toNat % 16) ::
      rest) = some (c, rest) := by
  have hzero : hexValue? '0' = some 0 := rfl
  have hhigh := hexValue?_upperHexDigit (show c.toNat / 16 < 16 by omega)
  have hlow := hexValue?_upperHexDigit (show c.toNat % 16 < 16 by omega)
  have hvalue : 16 * (c.toNat / 16) + c.toNat % 16 = c.toNat := Nat.div_add_mod c.toNat 16
  have hvalid : c.toNat.isValidChar := .inl (by omega)
  simp [codePoint?, hexNumber?, hzero, hhigh, hlow, hvalue, hvalid, Char.ofNat_toNat]

/-- The characters behind a backslash are read as the character `c`, also where a line could
end. -/
structure IsEscapeOf (c : Char) (letters : List Char) : Prop where
  /-- They are an escape of the character. -/
  escape : ∀ rest, escape? (letters ++ rest) = some (c, rest)
  /-- They do not remove the end of a line. -/
  not_continued : ∀ rest, continuedLine? (letters ++ rest) = none

/-- A character is written as itself or as an escape. -/
def IsWritten (c : Char) (written : List Char) : Prop :=
  (written = [c] ∧ isBasicChar c) ∨ ∃ letters, written = '\\' :: letters ∧ IsEscapeOf c letters

theorem continuedLine?_cons (h : isSpace d = false) (hfeed : d ≠ '\n') (hreturn : d ≠ '\r')
    (rest : List Char) : continuedLine? (d :: rest) = none := by
  rw [continuedLine?, skipSpaces, List.dropWhile_cons_of_neg (by simp [h]), lineBreak?,
    if_neg hfeed, if_neg hreturn, Option.map_none]

theorem isEscapeOf_short (h : shortEscapes.lookup d = some c) : IsEscapeOf c [d] where
  escape rest := by simp only [List.singleton_append, escape?, h]
  not_continued rest := by
    have hmem : (d, c) ∈ shortEscapes := by
      obtain ⟨before, after, hall, -⟩ := List.lookup_eq_some_iff.1 h
      rw [hall]
      simp
    have hletter : ∀ pair ∈ shortEscapes,
        isSpace pair.1 = false ∧ pair.1 ≠ '\n' ∧ pair.1 ≠ '\r' := by decide
    exact continuedLine?_cons (hletter _ hmem).1 (hletter _ hmem).2.1 (hletter _ hmem).2.2 _

theorem isEscapeOf_hex (h : c.toNat < 256) : IsEscapeOf c
    ['u', '0', '0', upperHexDigit (c.toNat / 16), upperHexDigit (c.toNat % 16)] where
  escape rest := by
    have hlookup : shortEscapes.lookup 'u' = none := by decide
    simp only [List.cons_append, List.nil_append, escape?, hlookup, if_pos]
    exact codePoint?_hex h rest
  not_continued rest := continuedLine?_cons (by decide) (by decide) (by decide) _

theorem isBasicChar_iff : isBasicChar c ↔ isPrintable c ∧ c ≠ '"' ∧ c ≠ '\\' := by
  simp [isBasicChar, and_assoc]

/-- A character that needs no escape is shown as it is. -/
theorem isPrintable_of_needsEscape (h : needsEscape c = false) (hfeed : c ≠ '\n') :
    isPrintable c := by
  by_cases htab : c = '\t'
  · rw [isPrintable, htab]; rfl
  · have hnat : 0x20 ≤ c.toNat ∧ c.toNat ≠ 0x7F := by
      simpa [needsEscape, hfeed, htab] using h
    simp [isPrintable, hnat]

/-- **Each character of a basic string can be read back.** -/
theorem isWritten_basicChar (hquote : c ≠ '"') (hfeed : c ≠ '\n') : IsWritten c (basicChar c) := by
  unfold basicChar
  split_ifs with hb ht hf hr hbackslash hescape
  · exact .inr ⟨['b'], rfl, isEscapeOf_short (by rw [hb]; rfl)⟩
  · exact .inr ⟨['t'], rfl, isEscapeOf_short (by rw [ht]; rfl)⟩
  · exact .inr ⟨['f'], rfl, isEscapeOf_short (by rw [hf]; rfl)⟩
  · exact .inr ⟨['r'], rfl, isEscapeOf_short (by rw [hr]; rfl)⟩
  · exact .inr ⟨['\\'], rfl, isEscapeOf_short (by rw [hbackslash]; rfl)⟩
  · refine .inr ⟨_, rfl, isEscapeOf_hex ?_⟩
    simp [needsEscape] at hescape
    omega
  · refine .inl ⟨rfl, ?_⟩
    have hprintable := isPrintable_of_needsEscape (by simpa using hescape) hfeed
    exact isBasicChar_iff.2 ⟨hprintable, hquote, hbackslash⟩

/-! ### Strings on one line -/

/-- What is written in front of `rest` does not go on with another quote. -/
structure EndsString (rest : List Char) : Prop where
  /-- No double quote follows. -/
  double : rest.head? ≠ some '"'
  /-- No single quote follows. -/
  single : rest.head? ≠ some '\''

theorem basicLine?_append {written : List Char} (h : IsWritten c written) (rest : List Char) :
    basicLine? (written ++ rest) =
      (basicLine? rest).map fun (body, after) ↦ (c :: body, after) := by
  rcases h with ⟨rfl, hbasic⟩ | ⟨letters, rfl, hletters⟩
  · obtain ⟨-, hquote, hbackslash⟩ := isBasicChar_iff.1 hbasic
    rw [List.singleton_append, basicLine?, if_neg hquote, if_neg hbackslash, if_pos hbasic]
  · rw [List.cons_append, basicLine?, if_neg (by decide), if_pos rfl]
    split
    · next d after hescape =>
      obtain ⟨rfl, rfl⟩ : c = d ∧ rest = after := by
        simpa [hletters.escape rest] using hescape
      rfl
    · next hescape => simp [hletters.escape rest] at hescape

/-- What is written for one character, and for those behind it. -/
theorem exists_writeBasicLine_cons (c : Char) (text : List Char) :
    ∃ written, writeBasicLine (c :: text) = written ++ writeBasicLine text ∧
      IsWritten c written := by
  rw [writeBasicLine]
  split_ifs with hquote hfeed
  · exact ⟨['\\', '"'], rfl, .inr ⟨['"'], rfl, isEscapeOf_short (by rw [hquote]; rfl)⟩⟩
  · exact ⟨['\\', 'n'], rfl, .inr ⟨['n'], rfl, isEscapeOf_short (by rw [hfeed]; rfl)⟩⟩
  · exact ⟨basicChar c, rfl, isWritten_basicChar hquote hfeed⟩

/-- A basic string on one line is read up to its closing quote. -/
theorem basicLine?_writeBasicLine (text rest : List Char) :
    basicLine? (writeBasicLine text ++ '"' :: rest) = some (text, rest) := by
  induction text with
  | nil => rw [writeBasicLine, List.nil_append, basicLine?, if_pos rfl]
  | cons c text ih =>
    obtain ⟨written, hwrite, hwritten⟩ := exists_writeBasicLine_cons c text
    rw [hwrite, List.append_assoc, basicLine?_append hwritten, ih]
    rfl

/-- What is written for a character does not start like anything else. -/
theorem exists_head?_of_isWritten {written : List Char} (h : IsWritten c written)
    (rest : List Char) : ∃ d, (written ++ rest).head? = some d ∧ isPrintable d ∧ d ≠ '"' := by
  rcases h with ⟨rfl, hbasic⟩ | ⟨letters, rfl, -⟩
  · obtain ⟨hprintable, hquote, -⟩ := isBasicChar_iff.1 hbasic
    exact ⟨c, rfl, hprintable, hquote⟩
  · exact ⟨'\\', rfl, by decide, by decide⟩

theorem head?_ne_of_isWritten {written : List Char} (h : IsWritten c written) (rest : List Char) :
    (written ++ rest).head? ≠ some '"' := by
  obtain ⟨d, hd, -, hne⟩ := exists_head?_of_isWritten h rest
  rw [hd]
  simpa using hne

/-- A literal string on one line is read up to its closing quote. -/
theorem literalLine?_append (hprintable : ∀ c ∈ text, isPrintable c) (hquote : '\'' ∉ text)
    (rest : List Char) : literalLine? (text ++ '\'' :: rest) = some (text, rest) := by
  induction text with
  | nil => rw [List.nil_append, literalLine?, if_pos rfl]
  | cons c text ih =>
    rw [List.mem_cons, not_or] at hquote
    rw [List.forall_mem_cons] at hprintable
    rw [List.cons_append, literalLine?, if_neg (Ne.symm hquote.1), if_pos hprintable.1,
      ih hprintable.2 hquote.2]
    rfl

/-! ### Quotes at the end of a string of several lines -/

@[simp] theorem countQuotes_replicate (n : Nat) (quote : Char) :
    countQuotes quote (List.replicate n quote) = n := by
  simp [countQuotes, List.takeWhile_replicate_eq_filter]

theorem countQuotes_append_of_head? (h : rest.head? ≠ some quote) (n : Nat) :
    countQuotes quote (List.replicate n quote ++ rest) = n := by
  have hrest : rest.takeWhile (· == quote) = [] := by
    cases rest with
    | nil => rfl
    | cons d rest =>
      have hne : d ≠ quote := fun heq ↦ h (by rw [heq]; rfl)
      exact List.takeWhile_cons_of_neg (by simpa using hne)
  rw [countQuotes, List.takeWhile_append_of_pos (by simp), hrest]
  simp

theorem countQuotes_append_of_ne (h : text ≠ List.replicate text.length quote)
    (rest : List Char) : countQuotes quote (text ++ rest) = countQuotes quote text := by
  induction text with
  | nil => simp at h
  | cons c text ih =>
    by_cases hc : c = quote
    · subst hc
      have htext : text ≠ List.replicate text.length c := by
        intro htext
        exact h (by rw [List.length_cons, List.replicate_succ, ← htext])
      have := ih htext
      simp only [countQuotes, List.cons_append, List.takeWhile_cons, beq_self_eq_true, if_true,
        List.length_cons] at this ⊢
      rw [this]
    · simp [countQuotes, hc]

/-- The three quotes that close a string, and what follows. -/
def closing (quote : Char) (rest : List Char) : List Char := quote :: quote :: quote :: rest

/-- **Where a string ends is not mistaken.** Up to two quotes in a row belong to the string, at its
end as elsewhere. -/
theorem closingQuotes?_append (h : countQuotes quote text ≤ 2) (hrest : rest.head? ≠ some quote) :
    closingQuotes? (countQuotes quote (text ++ closing quote rest)) =
      if text = List.replicate text.length quote then some text.length else none := by
  split
  · next htext =>
    have hclosing : text ++ closing quote rest =
        List.replicate (text.length + 3) quote ++ rest := by
      rw [← List.replicate_append_replicate, ← htext, List.append_assoc]
      rfl
    have hlength : text.length ≤ 2 := by
      rwa [htext, countQuotes_replicate] at h
    rw [hclosing, countQuotes_append_of_head? hrest, closingQuotes?, if_neg (by omega)]
    congr 1
    omega
  · next htext => rw [countQuotes_append_of_ne htext, closingQuotes?, if_pos (by omega)]

/-- A run of quotes as long as this is part of the string and does not close it. -/
theorem closingQuotes?_eq_none (h : countQuotes quote text ≤ 2) (hrest : rest.head? ≠ some quote)
    (htext : text ≠ List.replicate text.length quote) :
    closingQuotes? (countQuotes quote (text ++ closing quote rest)) = none := by
  rw [closingQuotes?_append h hrest, if_neg htext]

theorem closingQuotes?_replicate {n : Nat} (h : n ≤ 2) (hrest : rest.head? ≠ some quote) :
    closingQuotes? (countQuotes quote (List.replicate n quote ++ closing quote rest)) = some n := by
  have hcount : countQuotes quote (List.replicate n quote) ≤ 2 := by
    rwa [countQuotes_replicate]
  rw [closingQuotes?_append hcount hrest, if_pos (by simp), List.length_replicate]

theorem drop_replicate_append_closing (n : Nat) (quote : Char) (rest : List Char) :
    (List.replicate n quote ++ closing quote rest).drop (n + 3) = rest := by
  rw [← List.drop_drop, List.drop_left' (List.length_replicate)]
  rfl

theorem exists_replicate_append_closing (n : Nat) (quote : Char) (rest : List Char) :
    ∃ more, List.replicate n quote ++ closing quote rest = quote :: more := by
  cases n with
  | zero => exact ⟨_, rfl⟩
  | succ n => exact ⟨_, rfl⟩

/-! ### Basic strings of several lines -/

theorem basicLines?_append {written : List Char} (h : IsWritten c written) (rest : List Char) :
    basicLines? (written ++ rest) =
      (basicLines? rest).map fun (body, after) ↦ (c :: body, after) := by
  rcases h with ⟨rfl, hbasic⟩ | ⟨letters, rfl, hletters⟩
  · obtain ⟨-, hquote, hbackslash⟩ := isBasicChar_iff.1 hbasic
    rw [List.singleton_append, basicLines?, if_neg hquote, if_neg hbackslash, if_pos hbasic]
  · rw [List.cons_append, basicLines?, if_neg (by decide), if_pos rfl]
    split
    · next after hcontinued => simp [hletters.not_continued rest] at hcontinued
    · split
      · next d after hescape =>
        obtain ⟨rfl, rfl⟩ : c = d ∧ rest = after := by
          simpa [hletters.escape rest] using hescape
        rfl
      · next hescape => simp [hletters.escape rest] at hescape

theorem basicLines?_feed (rest : List Char) : basicLines? ('\n' :: rest) =
    (basicLines? rest).map fun (body, after) ↦ ('\n' :: body, after) := by
  rw [basicLines?, if_neg (by decide), if_neg (by decide), if_neg (by decide)]
  rfl

theorem basicLines?_quote (h : closingQuotes? (countQuotes '"' ('"' :: rest)) = none) :
    basicLines? ('"' :: rest) =
      (basicLines? rest).map fun (body, after) ↦ ('"' :: body, after) := by
  rw [basicLines?, if_pos rfl, h]

theorem basicLines?_closing {n : Nat} (h : n ≤ 2) (hrest : rest.head? ≠ some '"') :
    basicLines? (List.replicate n '"' ++ closing '"' rest) =
      some (List.replicate n '"', rest) := by
  have hclosing := closingQuotes?_replicate h hrest
  have hdrop := drop_replicate_append_closing n '"' rest
  obtain ⟨more, hmore⟩ := exists_replicate_append_closing n '"' rest
  rw [hmore] at hclosing hdrop ⊢
  rw [basicLines?, if_pos rfl, hclosing]
  simp only [hdrop]

/-- The writer counts the bare quotes in a row, so that there are no more than two. -/
theorem countQuotes_writeBasicLines_le {quotes : Nat} (h : quotes ≤ 2) (text : List Char) :
    countQuotes '"' (writeBasicLines quotes text) ≤ 2 - quotes := by
  induction text generalizing quotes with
  | nil => exact Nat.zero_le _
  | cons c text ih =>
    rw [writeBasicLines]
    split_ifs with hquote hquotes hfeed
    · have := ih (show quotes + 1 ≤ 2 by omega)
      simp only [countQuotes, List.takeWhile_cons, beq_self_eq_true, if_true,
        List.length_cons] at this ⊢
      omega
    · simp [countQuotes]
    · simp [countQuotes]
    · have hhead := head?_ne_of_isWritten (isWritten_basicChar hquote hfeed)
        (writeBasicLines 0 text)
      rw [← List.nil_append (_ ++ _), ← List.replicate_zero,
        countQuotes_append_of_head? hhead]
      exact Nat.zero_le _

/-- Where only quotes are written, the string has nothing else. -/
theorem eq_of_writeBasicLines_eq_replicate {quotes n : Nat} {text : List Char}
    (h : writeBasicLines quotes text = List.replicate n '"') : text = List.replicate n '"' := by
  induction text generalizing quotes n with
  | nil => simpa [writeBasicLines] using h
  | cons c text ih =>
    have hall : ∀ d ∈ writeBasicLines quotes (c :: text), d = '"' := fun d hd ↦ by
      rw [h] at hd
      exact List.eq_of_mem_replicate hd
    rw [writeBasicLines] at h hall
    split_ifs at h hall with hquote hquotes hfeed
    · cases n with
      | zero => cases h
      | succ n => rw [hquote, List.replicate_succ, ih (List.cons.inj h).2]
    · exact absurd (hall '\\' List.mem_cons_self) (by decide)
    · exact absurd (hall '\n' List.mem_cons_self) (by decide)
    · rcases isWritten_basicChar hquote hfeed with ⟨hwritten, -⟩ | ⟨letters, hwritten, -⟩
      · exact absurd (hall c (by simp [hwritten])) hquote
      · exact absurd (hall '\\' (by simp [hwritten])) (by decide)

/-- A basic string of several lines is read up to its closing quotes. -/
theorem basicLines?_writeBasicLines {quotes : Nat} (hquotes : quotes ≤ 2)
    (hrest : rest.head? ≠ some '"') (text : List Char) :
    basicLines? (writeBasicLines quotes text ++ closing '"' rest) = some (text, rest) := by
  induction text generalizing quotes with
  | nil => exact basicLines?_closing (Nat.zero_le 2) hrest
  | cons c text ih =>
    have hcount := Nat.le_trans (countQuotes_writeBasicLines_le hquotes (c :: text))
      (Nat.sub_le 2 quotes)
    by_cases hall : writeBasicLines quotes (c :: text) =
        List.replicate (writeBasicLines quotes (c :: text)).length '"'
    · -- nothing but quotes, which run into the closing ones
      have htext := eq_of_writeBasicLines_eq_replicate hall
      have hlength : (writeBasicLines quotes (c :: text)).length ≤ 2 := by
        rwa [hall, countQuotes_replicate] at hcount
      rw [hall, basicLines?_closing hlength hrest, ← htext]
    · have hnone := closingQuotes?_eq_none hcount hrest hall
      rw [writeBasicLines] at hnone ⊢
      split_ifs at hnone ⊢ with hquote hbare hfeed
      · rw [List.cons_append] at hnone ⊢
        rw [basicLines?_quote hnone, ih (by omega), hquote]
        rfl
      · have hwritten : IsWritten '"' ['\\', '"'] := .inr ⟨['"'], rfl, isEscapeOf_short rfl⟩
        have := basicLines?_append hwritten (writeBasicLines 0 text ++ closing '"' rest)
        simp only [List.cons_append, List.nil_append] at this ⊢
        rw [this, ih (Nat.zero_le 2), hquote]
        rfl
      · rw [List.cons_append, basicLines?_feed, ih (Nat.zero_le 2), hfeed]
        rfl
      · rw [List.append_assoc, basicLines?_append (isWritten_basicChar hquote hfeed),
          ih (Nat.zero_le 2)]
        rfl

/-! ### Literal strings of several lines -/

theorem literalLines?_char (hquote : c ≠ '\'') (hprintable : isPrintable c) :
    literalLines? (c :: rest) =
      (literalLines? rest).map fun (body, after) ↦ (c :: body, after) := by
  rw [literalLines?, if_neg hquote, if_pos hprintable]

theorem literalLines?_feed (rest : List Char) : literalLines? ('\n' :: rest) =
    (literalLines? rest).map fun (body, after) ↦ ('\n' :: body, after) := by
  rw [literalLines?, if_neg (by decide), if_neg (by decide)]
  rfl

theorem literalLines?_quote (h : closingQuotes? (countQuotes '\'' ('\'' :: rest)) = none) :
    literalLines? ('\'' :: rest) =
      (literalLines? rest).map fun (body, after) ↦ ('\'' :: body, after) := by
  rw [literalLines?, if_pos rfl, h]

theorem literalLines?_closing {n : Nat} (h : n ≤ 2) (hrest : rest.head? ≠ some '\'') :
    literalLines? (List.replicate n '\'' ++ closing '\'' rest) =
      some (List.replicate n '\'', rest) := by
  have hclosing := closingQuotes?_replicate h hrest
  have hdrop := drop_replicate_append_closing n '\'' rest
  obtain ⟨more, hmore⟩ := exists_replicate_append_closing n '\'' rest
  rw [hmore] at hclosing hdrop ⊢
  rw [literalLines?, if_pos rfl, hclosing]
  simp only [hdrop]

theorem longestRun_mono {current current' longest longest' : Nat} (h : current ≤ current')
    (h' : longest ≤ longest') (text : List Char) :
    longestRun quote current longest text ≤ longestRun quote current' longest' text := by
  induction text generalizing current current' longest longest' with
  | nil => exact max_le_max h h'
  | cons c text ih =>
    rw [longestRun, longestRun]
    split
    · exact ih (Nat.succ_le_succ h) h'
    · exact ih (Nat.le_refl 0) (max_le_max h h')

/-- No part of a text has a longer run than the text. -/
theorem longestRun_tail_le (quote c : Char) (text : List Char) :
    longestRun quote 0 0 text ≤ longestRun quote 0 0 (c :: text) := by
  rw [longestRun]
  split
  · exact longestRun_mono (Nat.zero_le _) (Nat.le_refl 0) text
  · exact Nat.le_refl _

theorem max_le_longestRun (quote : Char) (current longest : Nat) (text : List Char) :
    max current longest ≤ longestRun quote current longest text := by
  induction text generalizing current longest with
  | nil => exact Nat.le_refl _
  | cons c text ih =>
    rw [longestRun]
    split
    · exact Nat.le_trans (max_le_max (Nat.le_succ _) (Nat.le_refl _)) (ih _ _)
    · exact Nat.le_trans (Nat.le_max_right _ _) (ih _ _)

/-- The run at the front of a text is one of its runs. -/
theorem countQuotes_add_le_longestRun (quote : Char) (current longest : Nat) (text : List Char) :
    countQuotes quote text + current ≤ longestRun quote current longest text := by
  induction text generalizing current longest with
  | nil => simp [countQuotes, longestRun]
  | cons c text ih =>
    rw [longestRun]
    split
    · next hc =>
      have := ih (current + 1) longest
      simp only [countQuotes, List.takeWhile_cons, hc, beq_self_eq_true, if_true,
        List.length_cons] at this ⊢
      omega
    · next hc =>
      have hcount : countQuotes quote (c :: text) = 0 := by simp [countQuotes, hc]
      have := max_le_longestRun quote 0 (max current longest) text
      omega

/-- A literal string of several lines is read up to its closing quotes. -/
theorem literalLines?_append (hprintable : ∀ c ∈ text, needsEscape c = false)
    (hrun : longestRun '\'' 0 0 text ≤ 2) (hrest : rest.head? ≠ some '\'') :
    literalLines? (text ++ closing '\'' rest) = some (text, rest) := by
  induction text with
  | nil => exact literalLines?_closing (Nat.zero_le 2) hrest
  | cons c text ih =>
    have hcount := Nat.le_trans (countQuotes_add_le_longestRun '\'' 0 0 (c :: text)) hrun
    have ih := ih (fun d hd ↦ hprintable d (List.mem_cons_of_mem c hd))
      (Nat.le_trans (longestRun_tail_le '\'' c text) hrun)
    by_cases hall : c :: text = List.replicate (c :: text).length '\''
    · -- nothing but quotes, which run into the closing ones
      have hlength : (c :: text).length ≤ 2 := by
        rwa [hall, countQuotes_replicate] at hcount
      rw [hall, literalLines?_closing hlength hrest]
    · have hnone := closingQuotes?_eq_none hcount hrest hall
      rw [List.cons_append] at hnone ⊢
      by_cases hquote : c = '\''
      · rw [hquote] at hnone ⊢
        rw [literalLines?_quote hnone, ih]
        rfl
      by_cases hfeed : c = '\n'
      · rw [hfeed, literalLines?_feed, ih]
        rfl
      · have hc := isPrintable_of_needsEscape (hprintable c List.mem_cons_self) hfeed
        rw [literalLines?_char hquote hc, ih]
        rfl

/-! ### Strings of all styles -/

/-- Two quotes are no tripled ones. -/
theorem expectWord_tripled_eq_none (h : ∀ after, text = quote :: after → after.head? ≠ some quote) :
    expectWord [quote, quote, quote] (quote :: text) = none := by
  refine Option.eq_none_iff_forall_ne_some.2 fun rest hrest ↦ ?_
  have htext := (List.cons.inj (expectWord_eq_some_iff.1 hrest)).2
  exact h _ htext rfl

theorem expectWord_closing (quote : Char) (rest : List Char) :
    expectWord [quote, quote, quote] (closing quote rest) = some rest :=
  expectWord_eq_some_iff.2 rfl

theorem string?_basic (hrest : rest.head? ≠ some '"') (text : List Char) :
    string? ('"' :: (writeBasicLine text ++ '"' :: rest)) = some (text, rest) := by
  have htripled : expectWord ['"', '"', '"'] ('"' :: (writeBasicLine text ++ '"' :: rest)) =
      none := by
    refine expectWord_tripled_eq_none fun after hafter ↦ ?_
    cases text with
    | nil =>
      obtain rfl := (List.cons.inj hafter).2
      exact hrest
    | cons c text =>
      obtain ⟨written, hwrite, hwritten⟩ := exists_writeBasicLine_cons c text
      have hhead := head?_ne_of_isWritten hwritten (writeBasicLine text ++ '"' :: rest)
      rw [← List.append_assoc, ← hwrite, hafter] at hhead
      exact absurd rfl hhead
  rw [string?, htripled, expectWord_cons_eq_none (by decide), lineString?, if_pos rfl]
  exact basicLine?_writeBasicLine text rest

theorem string?_literal (hprintable : ∀ c ∈ text, isPrintable c) (hquote : '\'' ∉ text)
    (hrest : rest.head? ≠ some '\'') :
    string? ('\'' :: (text ++ '\'' :: rest)) = some (text, rest) := by
  have htripled : expectWord ['\'', '\'', '\''] ('\'' :: (text ++ '\'' :: rest)) = none := by
    refine expectWord_tripled_eq_none fun after hafter ↦ ?_
    cases text with
    | nil =>
      obtain rfl := (List.cons.inj hafter).2
      exact hrest
    | cons c text =>
      obtain rfl := (List.cons.inj hafter).1
      exact absurd List.mem_cons_self hquote
  rw [string?, expectWord_cons_eq_none (by decide), htripled, lineString?, if_neg (by decide),
    if_pos rfl]
  exact literalLine?_append hprintable hquote rest

/-- The line break behind the opening quotes is passed over, and nothing else is. -/
theorem skipLineBreak_openingBreak {written : List Char}
    (h : '\n' ∉ text → written.head? ≠ some '\n' ∧ written.head? ≠ some '\r') :
    skipLineBreak (openingBreak text ++ written) = written := by
  unfold openingBreak
  split
  · rfl
  · next htext =>
    obtain ⟨hfeed, hreturn⟩ := h (by simpa using htext)
    cases written with
    | nil => rfl
    | cons c written =>
      have hc : c ≠ '\n' := by simpa using hfeed
      have hc' : c ≠ '\r' := by simpa using hreturn
      rw [List.nil_append, skipLineBreak, lineBreak?, if_neg hc, if_neg hc', Option.getD_none]

/-- Without a line feed, nothing that is written starts with a line break. -/
theorem head?_writeBasicLines (h : '\n' ∉ text) (rest : List Char) :
    (writeBasicLines 0 text ++ closing '"' rest).head? ≠ some '\n' ∧
      (writeBasicLines 0 text ++ closing '"' rest).head? ≠ some '\r' := by
  cases text with
  | nil => simp [writeBasicLines, closing]
  | cons c text =>
    have hfeed : c ≠ '\n' := fun hc ↦ h (hc ▸ List.mem_cons_self)
    by_cases hquote : c = '"'
    · simp [writeBasicLines, hquote]
    · obtain ⟨d, hd, hprintable, -⟩ := exists_head?_of_isWritten
        (isWritten_basicChar hquote hfeed) (writeBasicLines 0 text ++ closing '"' rest)
      rw [writeBasicLines, if_neg hquote, if_neg hfeed, List.append_assoc, hd]
      constructor <;> rintro ⟨⟩ <;> exact absurd hprintable (by decide)

theorem string?_basicLines (hrest : rest.head? ≠ some '"') (text : List Char) :
    string? (closing '"' (openingBreak text ++ (writeBasicLines 0 text ++ closing '"' rest))) =
      some (text, rest) := by
  rw [string?, expectWord_closing]
  simp only
  rw [skipLineBreak_openingBreak fun h ↦ head?_writeBasicLines h rest]
  exact basicLines?_writeBasicLines (Nat.zero_le 2) hrest text

theorem string?_literalLines (hprintable : ∀ c ∈ text, needsEscape c = false)
    (hrun : longestRun '\'' 0 0 text ≤ 2) (hrest : rest.head? ≠ some '\'') :
    string? (closing '\'' (openingBreak text ++ (text ++ closing '\'' rest))) =
      some (text, rest) := by
  have hbreak : '\n' ∉ text → (text ++ closing '\'' rest).head? ≠ some '\n' ∧
      (text ++ closing '\'' rest).head? ≠ some '\r' := by
    intro htext
    cases text with
    | nil => simp [closing]
    | cons c text =>
      have hc := isPrintable_of_needsEscape (hprintable c List.mem_cons_self)
        fun hc ↦ htext (hc ▸ List.mem_cons_self)
      constructor <;> rintro ⟨⟩ <;> exact absurd hc (by decide)
  have hdouble (more : List Char) : expectWord ['"', '"', '"'] (closing '\'' more) = none :=
    expectWord_cons_eq_none (by decide) _ _
  rw [string?, hdouble, expectWord_closing]
  simp only
  rw [skipLineBreak_openingBreak hbreak]
  exact literalLines?_append hprintable hrun hrest

/-- Single quotes without escapes are chosen where there is nothing that needs one. -/
theorem of_styleOf_eq_literal (h : styleOf text = .literal) :
    (∀ c ∈ text, isPrintable c) ∧ '\'' ∉ text := by
  unfold styleOf at h
  split_ifs at h with hescape _ hstyle
  simp only [Bool.and_eq_true, Bool.not_eq_true', List.contains_eq_mem, decide_eq_false_iff_not,
    List.any_eq_false] at hescape hstyle
  refine ⟨fun c hc ↦ isPrintable_of_needsEscape (by simpa using hescape c hc) ?_, hstyle.2⟩
  rintro rfl
  exact hstyle.1 hc

theorem of_styleOf_eq_literalLines (h : styleOf text = .literalLines) :
    (∀ c ∈ text, needsEscape c = false) ∧ longestRun '\'' 0 0 text ≤ 2 := by
  unfold styleOf at h
  split_ifs at h with hescape _ _ _ hrun
  rw [Bool.not_eq_true', List.any_eq_false] at hescape
  exact ⟨fun c hc ↦ by simpa using hescape c hc, hrun⟩

/-- **A string is read back as it was written**, if no quote follows. -/
theorem string?_writeString (h : EndsString rest) (text : List Char) :
    string? (writeString text ++ rest) = some (text, rest) := by
  unfold writeString
  cases hstyle : styleOf text with
  | basic => simpa using string?_basic h.double text
  | literal =>
    obtain ⟨hprintable, hquote⟩ := of_styleOf_eq_literal hstyle
    simpa using string?_literal hprintable hquote h.single
  | basicLines => simpa [closing] using string?_basicLines h.double text
  | literalLines =>
    obtain ⟨hprintable, hrun⟩ := of_styleOf_eq_literalLines hstyle
    simpa [closing] using string?_literalLines hprintable hrun h.single

end SchemaDiagram.Toml
