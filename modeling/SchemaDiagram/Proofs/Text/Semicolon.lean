import SchemaDiagram.Proofs.Text.Token

/-!
# Readers that stop at a semicolon

No token that stands in a call has a semicolon in it, and none is longer for what comes behind one.
So a reader of such tokens answers the same on two texts that agree up to a semicolon. The property
`StopsAtSemicolon` says so for all texts behind the semicolon at once, and says of which characters
the tokens are made. It holds of the readers of single tokens and is kept by putting readers one
behind another (`StopsAtSemicolon.bind`).
-/

namespace SchemaDiagram.Text

variable {α β : Type} {p : Char → Prop}

/-- On a text with a semicolon, the reader takes the same characters before the semicolon and
answers the same, whatever stands behind the semicolon; and all that it takes is in the class
`p`. -/
def StopsAtSemicolon (p : Char → Prop) (read : List Char → Option (α × List Char)) : Prop :=
  ∀ front, (∀ behind, read (front ++ ';' :: behind) = none) ∨
    ∃ answer token rest, front = token ++ rest ∧ (∀ c ∈ token, p c) ∧
      ∀ behind, read (front ++ ';' :: behind) = some (answer, rest ++ ';' :: behind)

/-- A reader without an answer of its own. -/
def asReader (read : List Char → Option (List Char)) (text : List Char) :
    Option (Unit × List Char) :=
  (read text).map fun rest ↦ ((), rest)

/-! ### Readers one behind another -/

namespace StopsAtSemicolon

theorem of_eq {read other : List Char → Option (α × List Char)} (hread : StopsAtSemicolon p read)
    (heq : ∀ text, read text = other text) : StopsAtSemicolon p other :=
  funext heq ▸ hread

theorem pure (answer : α) : StopsAtSemicolon p fun text ↦ some (answer, text) := fun front ↦
  .inr ⟨answer, [], front, rfl, by simp, fun _ ↦ rfl⟩

theorem bind {read : List Char → Option (α × List Char)}
    {next : α → List Char → Option (β × List Char)} (hread : StopsAtSemicolon p read)
    (hnext : ∀ answer, StopsAtSemicolon p (next answer)) :
    StopsAtSemicolon p fun text ↦ (read text).bind fun x ↦ next x.1 x.2 := by
  intro front
  rcases hread front with hnone | ⟨answer, token, rest, rfl, htoken, hsome⟩
  · exact .inl fun behind ↦ by simp only [hnone, Option.bind_none]
  · rcases hnext answer rest with hnone | ⟨answer', token', rest', rfl, htoken', hsome'⟩
    · exact .inl fun behind ↦ by simp only [hsome, Option.bind_some, hnone]
    · refine .inr ⟨answer', token ++ token', rest', (List.append_assoc _ _ _).symm, ?_, ?_⟩
      · intro c hc
        exact (List.mem_append.1 hc).elim (htoken c) (htoken' c)
      · intro behind
        simp only [hsome, Option.bind_some, hsome']

theorem bind_asReader {read : List Char → Option (List Char)}
    {next : List Char → Option (β × List Char)} (hread : StopsAtSemicolon p (asReader read))
    (hnext : StopsAtSemicolon p next) :
    StopsAtSemicolon p fun text ↦ (read text).bind next := by
  refine (hread.bind fun _ ↦ hnext).of_eq fun text ↦ ?_
  cases htext : read text <;> simp only [asReader, htext] <;> rfl

theorem map {read : List Char → Option (α × List Char)} (hread : StopsAtSemicolon p read)
    (f : α → β) : StopsAtSemicolon p fun text ↦ (read text).map fun x ↦ (f x.1, x.2) := by
  refine (hread.bind fun answer ↦ pure (f answer)).of_eq fun text ↦ ?_
  rw [Option.map_eq_bind]
  rfl

/-- Readers that are tried one after the other on the same text. -/
theorem findSome? {ι : Type} {read : ι → List Char → Option (α × List Char)}
    (hread : ∀ i, StopsAtSemicolon p (read i)) (choices : List ι) :
    StopsAtSemicolon p fun text ↦ choices.findSome? fun i ↦ read i text := by
  intro front
  induction choices with
  | nil => exact .inl fun _ ↦ rfl
  | cons i choices ih =>
    rcases hread i front with hnone | ⟨answer, token, rest, heq, htoken, hsome⟩
    · simpa only [List.findSome?_cons, hnone] using ih
    · exact .inr ⟨answer, token, rest, heq, htoken, fun behind ↦ by
        simp only [List.findSome?_cons, hsome]⟩

end StopsAtSemicolon

/-! ### Tokens -/

/-- A run of characters of a class without the semicolon ends before it. -/
theorem span_semicolon {q : Char → Bool} (hq : q ';' = false) (front behind : List Char) :
    (front ++ ';' :: behind).takeWhile q = front.takeWhile q ∧
      (front ++ ';' :: behind).dropWhile q = front.dropWhile q ++ ';' :: behind := by
  induction front with
  | nil => simp [hq]
  | cons c front ih =>
    rcases hc : q c with - | -
    · simp [hc]
    · simp [hc, ih.1, ih.2]

theorem skipBlanks_semicolon (front behind : List Char) :
    skipBlanks (front ++ ';' :: behind) = skipBlanks front ++ ';' :: behind :=
  (span_semicolon (by decide) front behind).2

theorem StopsAtSemicolon.skipBlanks {read : List Char → Option (α × List Char)}
    (hread : StopsAtSemicolon p read) (hblank : ∀ c, isBlank c = true → p c) :
    StopsAtSemicolon p fun text ↦ read (Text.skipBlanks text) := by
  intro front
  obtain ⟨g, hg⟩ := exists_gap_append_skipBlanks front
  simp only [skipBlanks_semicolon]
  rcases hread (Text.skipBlanks front) with hnone | ⟨answer, token, rest, heq, htoken, hsome⟩
  · exact .inl hnone
  · refine .inr ⟨answer, g.text ++ token, rest, ?_, ?_, hsome⟩
    · rw [List.append_assoc, ← heq, ← hg]
    · intro c hc
      exact (List.mem_append.1 hc).elim (fun h ↦ hblank c (g.isBlank_of_mem c h)) (htoken c)

theorem stopsAtSemicolon_expect {c : Char} (hc : c ≠ ';') (hp : p c) :
    StopsAtSemicolon p (asReader (expect c)) := by
  rintro (- | ⟨d, front⟩)
  · exact .inl fun behind ↦ by simp [asReader, expect, Ne.symm hc]
  · by_cases hd : d = c
    · subst hd
      exact .inr ⟨(), [d], front, rfl, by simpa using hp, fun behind ↦ by simp [asReader, expect]⟩
    · exact .inl fun behind ↦ by simp [asReader, expect, hd]

theorem stopsAtSemicolon_expectToken {c : Char} (hc : c ≠ ';') (hp : p c)
    (hblank : ∀ d, isBlank d = true → p d) : StopsAtSemicolon p (asReader (expectToken c)) :=
  (stopsAtSemicolon_expect hc hp).skipBlanks hblank

/-- A token is not sought behind a semicolon. -/
theorem expectToken_semicolon {c : Char} (hc : c ≠ ';') (front : List Char) :
    (∀ behind, expectToken c (front ++ ';' :: behind) = none) ∨
      ∃ (g : Gap) (rest : List Char), front = g.text ++ c :: rest ∧
        ∀ behind, expectToken c (front ++ ';' :: behind) = some (rest ++ ';' :: behind) := by
  obtain ⟨g, hg⟩ := exists_gap_append_skipBlanks front
  simp only [expectToken, skipBlanks_semicolon]
  rcases hskip : skipBlanks front with - | ⟨d, rest⟩
  · exact .inl fun behind ↦ by simp [expect, Ne.symm hc]
  · by_cases hd : d = c
    · subst hd
      exact .inr ⟨g, rest, hskip ▸ hg, fun behind ↦ by simp [expect]⟩
    · exact .inl fun behind ↦ by simp [expect, hd]

theorem stopsAtSemicolon_expectWord {word : List Char} (hword : ';' ∉ word)
    (hp : ∀ c ∈ word, p c) : StopsAtSemicolon p (asReader (expectWord word)) := by
  induction word with
  | nil => exact .pure ()
  | cons c word ih =>
    have hc : c ≠ ';' := fun heq ↦ hword (heq ▸ List.mem_cons_self)
    have hrest := ih (fun hmem ↦ hword (List.mem_cons_of_mem c hmem))
      fun d hd ↦ hp d (List.mem_cons_of_mem c hd)
    refine ((stopsAtSemicolon_expect hc (hp c List.mem_cons_self)).bind_asReader hrest).of_eq
      fun text ↦ ?_
    rw [asReader, expectWord, Option.map_bind]
    rfl

theorem stopsAtSemicolon_identifier? (hp : ∀ c, isWordChar c = true → p c) :
    StopsAtSemicolon p identifier? := by
  rintro (- | ⟨c, front⟩)
  · exact .inl fun behind ↦ rfl
  · by_cases hc : isIdentifierStart c = true
    · refine .inr ⟨c :: front.takeWhile isWordChar, c :: front.takeWhile isWordChar,
        front.dropWhile isWordChar, ?_, ?_, ?_⟩
      · rw [List.cons_append, List.takeWhile_append_dropWhile]
      · intro d hd
        rcases List.mem_cons.1 hd with rfl | hd
        · exact hp d (isWordChar_of_isIdentifierStart hc)
        · exact hp d (List.all_eq_true.1 List.all_takeWhile d hd)
      · intro behind
        obtain ⟨htake, hdrop⟩ := span_semicolon (show isWordChar ';' = false by decide) front behind
        rw [List.cons_append, identifier?, if_pos hc, htake, hdrop]
    · exact .inl fun behind ↦ by rw [List.cons_append, identifier?, if_neg hc]

/-! ### Dotted paths -/

/-- The identifier behind a dot. -/
def dottedIdentifier? (text : List Char) : Option (List Char × List Char) :=
  (expectToken '.' text).bind fun rest ↦ identifier? (skipBlanks rest)

theorem dottedTail_eq (text : List Char) :
    dottedTail text = match dottedIdentifier? text with
      | some (name, rest) => (name :: (dottedTail rest).1, (dottedTail rest).2)
      | none => ([], text) := by
  rw [dottedTail, dottedIdentifier?]
  split
  · next h => rw [h]
  · next h => rw [h]

theorem length_lt_of_dottedIdentifier? {text name rest : List Char}
    (h : dottedIdentifier? text = some (name, rest)) : rest.length < text.length := by
  obtain ⟨mid, hmid, hname⟩ := Option.bind_eq_some_iff.1 h
  have := length_lt_of_expectToken hmid
  have := skipBlanks_length_le mid
  have := length_lt_of_identifier? hname
  omega

section DottedPath

variable (hword : ∀ c, isWordChar c = true → p c) (hblank : ∀ c, isBlank c = true → p c)
  (hdot : p '.')

include hword hblank hdot

theorem stopsAtSemicolon_dottedIdentifier? : StopsAtSemicolon p dottedIdentifier? :=
  (stopsAtSemicolon_expectToken (by decide) hdot hblank).bind_asReader
    ((stopsAtSemicolon_identifier? hword).skipBlanks hblank)

theorem stopsAtSemicolon_dottedTail : StopsAtSemicolon p fun text ↦ some (dottedTail text) := by
  intro front
  induction hn : front.length using Nat.strongRecOn generalizing front with
  | ind n ih =>
    right
    rcases stopsAtSemicolon_dottedIdentifier? hword hblank hdot front with
      hnone | ⟨name, token, rest, rfl, htoken, hsome⟩
    · exact ⟨[], [], front, rfl, by simp, fun behind ↦ congrArg some (by rw [dottedTail_eq, hnone])⟩
    · have hlt := length_lt_of_dottedIdentifier? (hsome [])
      simp only [List.length_append] at hlt hn
      rcases ih rest.length (by omega) rest rfl with
        hnever | ⟨names, token', rest', rfl, htoken', hsome'⟩
      · exact absurd (hnever []) (Option.some_ne_none _)
      · refine ⟨name :: names, token ++ token', rest', (List.append_assoc _ _ _).symm, ?_, ?_⟩
        · intro c hc
          exact (List.mem_append.1 hc).elim (htoken c) (htoken' c)
        · intro behind
          have htail : dottedTail (token' ++ rest' ++ ';' :: behind) =
              (names, rest' ++ ';' :: behind) := Option.some.inj (hsome' behind)
          show some (dottedTail _) = _
          rw [dottedTail_eq, hsome behind]
          simp only [htail]

/-- A dotted path ends before a semicolon. -/
theorem stopsAtSemicolon_dottedPath? : StopsAtSemicolon p dottedPath? := by
  have h := (stopsAtSemicolon_identifier? hword).bind fun first ↦
    (stopsAtSemicolon_dottedTail hword hblank hdot).map fun names ↦ names.getLastD first
  refine h.of_eq fun text ↦ ?_
  rw [dottedPath?, Option.map_eq_bind]
  rfl

end DottedPath

end SchemaDiagram.Text
