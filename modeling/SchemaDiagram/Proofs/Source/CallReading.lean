import SchemaDiagram.Proofs.Source.AssociationCall
import SchemaDiagram.Proofs.Text.Semicolon

/-!
# Reading a call before a semicolon

A semicolon ends a statement, and no token of a call goes over it. But the options of a call are no
token: they go on to the first closing brace that a closing parenthesis follows, wherever that is.
At a place before a semicolon there are therefore three cases (`Reading`), each for all texts behind
the semicolon at once: no call starts there; a call does, and ends before the semicolon; or options
are opened there, and what stands behind the semicolon decides where they end.
-/

namespace SchemaDiagram.Source

open Text

/-! ### The front of a call -/

/-- The receiver, the kind and the target of a call at the front, with nothing read of its
options, and the text behind the target. -/
def callHead? (text : List Char) : Option (AssociationCall × List Char) := do
  let (receiver, rest) ← identifier? text
  let rest ← expectToken '.' rest
  let (kind, rest) ← kindAndParenthesis? (skipBlanks rest)
  let (target, rest) ← dottedPath? (skipBlanks rest)
  some ({ receiver, kind, target, options := [] }, rest)

theorem associationCall?_eq (text : List Char) :
    associationCall? text = (callHead? text).bind fun x ↦
      (closing? x.2).map fun y ↦ ({ x.1 with options := y.1 }, y.2) := by
  simp only [associationCall?, callHead?, Option.bind_eq_bind, Option.bind_assoc, Option.bind_some,
    Option.map_eq_bind]
  rfl

/-- The text behind the brace that opens the options of a call at the front. -/
def openedOptions? (text : List Char) : Option (List Char) :=
  (callHead? text).bind fun x ↦ (expectToken ',' x.2).bind (expectToken '{')

/-- What the front of a call is made of, up to its target. -/
def IsHeadChar (c : Char) : Prop :=
  isWordChar c = true ∨ isBlank c = true ∨ c = '.' ∨ c = '('

instance (c : Char) : Decidable (IsHeadChar c) :=
  inferInstanceAs (Decidable (_ ∨ _ ∨ _ ∨ _))

theorem isHeadChar_of_isWordChar (c : Char) (h : isWordChar c = true) : IsHeadChar c := .inl h

theorem isHeadChar_of_isBlank (c : Char) (h : isBlank c = true) : IsHeadChar c := .inr (.inl h)

theorem stopsAtSemicolon_kindAndParenthesis? : StopsAtSemicolon IsHeadChar kindAndParenthesis? := by
  refine .findSome? (fun kind ↦ ?_) AssociationKind.all
  have hword : ∀ c ∈ kind.keyword.toList, isWordChar c = true :=
    (isIdentifier_keyword kind).isWordChar_of_mem
  have hsemicolon : ';' ∉ kind.keyword.toList := fun h ↦ absurd (hword _ h) (by decide)
  exact (stopsAtSemicolon_expectWord hsemicolon fun c hc ↦ .inl (hword c hc)).bind_asReader
    ((stopsAtSemicolon_expectToken (by decide) (.inr (.inr (.inr rfl)))
      isHeadChar_of_isBlank).bind_asReader (.pure kind))

/-- **The front of a call does not look behind a semicolon.** -/
theorem stopsAtSemicolon_callHead? : StopsAtSemicolon IsHeadChar callHead? := by
  have hdot : IsHeadChar '.' := .inr (.inr (.inl rfl))
  have hpath (receiver : List Char) (kind : AssociationKind) :
      StopsAtSemicolon IsHeadChar fun text ↦ (dottedPath? (skipBlanks text)).map fun x ↦
        (AssociationCall.mk receiver kind x.1 [], x.2) :=
    ((stopsAtSemicolon_dottedPath? isHeadChar_of_isWordChar isHeadChar_of_isBlank hdot).skipBlanks
      isHeadChar_of_isBlank).map fun target ↦ AssociationCall.mk receiver kind target []
  have hmethod (receiver : List Char) :
      StopsAtSemicolon IsHeadChar fun text ↦ (kindAndParenthesis? (skipBlanks text)).bind fun x ↦
        (dottedPath? (skipBlanks x.2)).map fun y ↦
          (AssociationCall.mk receiver x.1 y.1 [], y.2) :=
    (stopsAtSemicolon_kindAndParenthesis?.skipBlanks isHeadChar_of_isBlank).bind (hpath receiver)
  have htoken : StopsAtSemicolon IsHeadChar (asReader (expectToken '.')) :=
    stopsAtSemicolon_expectToken (by decide) hdot isHeadChar_of_isBlank
  refine ((stopsAtSemicolon_identifier? isHeadChar_of_isWordChar).bind fun receiver ↦
    htoken.bind_asReader (hmethod receiver)).of_eq fun text ↦ ?_
  simp only [callHead?, Option.bind_eq_bind, Option.map_eq_bind]
  rfl

/-! ### Where the options end -/

/-- Options end in a text exactly if a closing parenthesis follows one of its closing braces. -/
theorem isSome_throughBraceParenthesis?_iff {text : List Char} :
    (throughBraceParenthesis? text).isSome = true ↔
      ∃ (before : List Char) (g : Gap) (behind : List Char),
        text = before ++ '}' :: (g.text ++ ')' :: behind) := by
  constructor
  · intro h
    induction text with
    | nil => exact absurd h Bool.false_ne_true
    | cons c text ih =>
      rw [throughBraceParenthesis?] at h
      split at h
      · next after hafter =>
        split at hafter
        · next hc =>
          obtain ⟨g, hg⟩ := eq_gap_append_of_expectToken hafter
          exact ⟨[], g, after, by rw [hc, hg, List.nil_append]⟩
        · exact absurd hafter.symm (Option.some_ne_none after)
      · rw [Option.isSome_map] at h
        obtain ⟨before, g, behind, rfl⟩ := ih h
        exact ⟨c :: before, g, behind, rfl⟩
  · rintro ⟨before, g, behind, rfl⟩
    induction before with
    | nil =>
      simp only [List.nil_append, throughBraceParenthesis?, if_true,
        expectToken_gap g (show isBlank ')' = false by decide), Option.isSome_some]
    | cons c before ih =>
      rw [List.cons_append, throughBraceParenthesis?]
      split
      · rfl
      · rwa [Option.isSome_map]

theorem throughBraceParenthesis?_gap (g : Gap) : throughBraceParenthesis? g.text = none := by
  rw [← Option.not_isSome_iff_eq_none, isSome_throughBraceParenthesis?_iff]
  rintro ⟨before, g', behind, h⟩
  have hbrace : '}' ∈ g.text := by
    rw [h]
    exact List.mem_append_right before List.mem_cons_self
  exact g.not_mem (by decide) hbrace

/-- **Options do not stop at a semicolon.** They end before it, or what stands behind it decides
where they end. -/
theorem throughBraceParenthesis?_semicolon (front : List Char) :
    (∃ (options : List Char) (g : Gap) (rest : List Char),
      front = options ++ '}' :: (g.text ++ ')' :: rest) ∧
        ∀ behind, throughBraceParenthesis? (front ++ ';' :: behind) =
          some (options, rest ++ ';' :: behind)) ∨
      ∀ behind, throughBraceParenthesis? (front ++ ';' :: behind) =
        (throughBraceParenthesis? behind).map fun x ↦ (front ++ ';' :: x.1, x.2) := by
  induction front with
  | nil =>
    refine .inr fun behind ↦ ?_
    rw [List.nil_append, throughBraceParenthesis?, if_neg (by decide)]
    rfl
  | cons c front ih =>
    -- whether the options end at this place is decided before the semicolon
    have hhere : (∃ (g : Gap) (rest : List Char), c = '}' ∧ front = g.text ++ ')' :: rest ∧
          ∀ behind, expectToken ')' (front ++ ';' :: behind) = some (rest ++ ';' :: behind)) ∨
        ∀ behind,
          (if c = '}' then expectToken ')' (front ++ ';' :: behind) else none) = none := by
      by_cases hc : c = '}'
      · rcases expectToken_semicolon (show ')' ≠ ';' by decide) front with
          hnone | ⟨g, rest, hfront, hsome⟩
        · exact .inr fun behind ↦ by rw [if_pos hc, hnone]
        · exact .inl ⟨g, rest, hc, hfront, hsome⟩
      · exact .inr fun behind ↦ if_neg hc
    rcases hhere with ⟨g, rest, rfl, rfl, hsome⟩ | hnone
    · refine .inl ⟨[], g, rest, rfl, fun behind ↦ ?_⟩
      rw [List.cons_append, throughBraceParenthesis?, if_pos rfl, hsome]
    · have hstep (behind : List Char) :
          throughBraceParenthesis? (c :: front ++ ';' :: behind) =
            (throughBraceParenthesis? (front ++ ';' :: behind)).map fun x ↦ (c :: x.1, x.2) := by
        rw [List.cons_append, throughBraceParenthesis?, hnone]
      rcases ih with ⟨options, g, rest, rfl, hsome⟩ | hopen
      · refine .inl ⟨c :: options, g, rest, rfl, fun behind ↦ ?_⟩
        rw [hstep, hsome]
        rfl
      · refine .inr fun behind ↦ ?_
        rw [hstep, hopen, Option.map_map]
        rfl

/-- How a call ends: with a closing parenthesis, and a closing brace in front of it if the call has
options in braces. -/
def EndsCall (token : List Char) : Prop :=
  ∃ inside, token = inside ++ [')'] ∧
    ((∃ (before : List Char) (g : Gap), inside = before ++ '}' :: g.text) ∨ '{' ∉ inside)

theorem EndsCall.append_left {head token : List Char} (h : EndsCall token) (hhead : '{' ∉ head) :
    EndsCall (head ++ token) := by
  obtain ⟨inside, rfl, hinside⟩ := h
  refine ⟨head ++ inside, (List.append_assoc _ _ _).symm, ?_⟩
  rcases hinside with ⟨before, g, rfl⟩ | hbrace
  · exact .inl ⟨head ++ before, g, (List.append_assoc _ _ _).symm⟩
  · exact .inr fun hmem ↦ (List.mem_append.1 hmem).elim hhead hbrace

/-- The name of a variable in place of options ends before the semicolon, if anything does. -/
theorem variable_semicolon (front : List Char) :
    (∀ behind, expectToken ')' ((front ++ ';' :: behind).dropWhile inVariablePath) = none) ∨
      ∃ name rest, front = name ++ ')' :: rest ∧ '{' ∉ name ∧
        ∀ behind, expectToken ')' ((front ++ ';' :: behind).dropWhile inVariablePath) =
          some (rest ++ ';' :: behind) := by
  have hdrop (behind : List Char) :=
    (span_semicolon (show inVariablePath ';' = false by decide) front behind).2
  simp only [hdrop]
  rcases expectToken_semicolon (show ')' ≠ ';' by decide) (front.dropWhile inVariablePath) with
    hnone | ⟨g, rest, hrest, hsome⟩
  · exact .inl hnone
  · refine .inr ⟨front.takeWhile inVariablePath ++ g.text, rest, ?_, fun hmem ↦ ?_, hsome⟩
    · rw [List.append_assoc, ← hrest, List.takeWhile_append_dropWhile]
    · rcases List.mem_append.1 hmem with hmem | hmem
      · exact absurd (List.all_eq_true.1 List.all_takeWhile '{' hmem) (by decide)
      · exact g.not_mem (by decide) hmem

/-- What stands behind the comma of a call: nothing that can be read, an end before the semicolon,
or the brace of options that do not end before it. -/
theorem options?_semicolon (front : List Char) :
    (∀ behind, options? (front ++ ';' :: behind) = none) ∨
      (∃ options token rest, front = token ++ rest ∧ EndsCall token ∧
        ∀ behind, options? (front ++ ';' :: behind) = some (options, rest ++ ';' :: behind)) ∨
      ∃ (g : Gap) (body : List Char), front = g.text ++ '{' :: body ∧ ∀ behind,
        options? (front ++ ';' :: behind) = throughBraceParenthesis? (body ++ ';' :: behind) ∧
        throughBraceParenthesis? (body ++ ';' :: behind) =
          (throughBraceParenthesis? behind).map fun x ↦ (body ++ ';' :: x.1, x.2) := by
  obtain ⟨g, hg⟩ := exists_gap_append_skipBlanks front
  rcases hskip : skipBlanks front with - | ⟨d, more⟩
  · exact .inl fun behind ↦ by
      simp [options?, skipBlanks_semicolon, hskip, show isIdentifierStart ';' = false by decide]
  · rw [hskip] at hg
    have hoptions (behind : List Char) : options? (front ++ ';' :: behind) =
        if d = '{' then throughBraceParenthesis? (more ++ ';' :: behind)
        else if isIdentifierStart d then
          (expectToken ')' ((more ++ ';' :: behind).dropWhile inVariablePath)).map fun after ↦
            ([], after)
        else none := by
      simp only [options?, skipBlanks_semicolon, hskip, List.cons_append]
    by_cases hbrace : d = '{'
    · subst hbrace
      simp only [hoptions, if_true]
      rcases throughBraceParenthesis?_semicolon more with
        ⟨options, g', rest, rfl, hsome⟩ | hopen
      · refine .inr (.inl ⟨options, g.text ++ '{' :: options ++ '}' :: g'.text ++ [')'], rest, ?_,
          ⟨_, rfl, .inl ⟨_, g', rfl⟩⟩, hsome⟩)
        rw [hg]
        simp
      · exact .inr (.inr ⟨g, more, hg, fun behind ↦ ⟨rfl, hopen behind⟩⟩)
    · by_cases hstart : isIdentifierStart d = true
      · simp only [hoptions, if_neg hbrace, hstart, if_true]
        rcases variable_semicolon more with hnone | ⟨name, rest, rfl, hname, hsome⟩
        · exact .inl fun behind ↦ by rw [hnone, Option.map_none]
        · refine .inr (.inl ⟨[], g.text ++ d :: name ++ [')'], rest, ?_, ⟨_, rfl, .inr ?_⟩,
            fun behind ↦ by rw [hsome, Option.map_some]⟩)
          · rw [hg]
            simp
          · have hgap : '{' ∉ g.text := g.not_mem (by decide)
            simp [hgap, hname, Ne.symm hbrace]
      · exact .inl fun behind ↦ by rw [hoptions, if_neg hbrace, if_neg hstart]

/-- What stands behind the target of a call: nothing that can be read, an end before the semicolon,
or the brace of options that do not end before it. -/
theorem closing?_semicolon (front : List Char) :
    (∀ behind, closing? (front ++ ';' :: behind) = none) ∨
      (∃ options token rest, front = token ++ rest ∧ EndsCall token ∧
        ∀ behind, closing? (front ++ ';' :: behind) = some (options, rest ++ ';' :: behind)) ∨
      ∃ body, ∀ behind,
        (expectToken ',' (front ++ ';' :: behind)).bind (expectToken '{') =
          some (body ++ ';' :: behind) ∧
        closing? (front ++ ';' :: behind) = throughBraceParenthesis? (body ++ ';' :: behind) ∧
        throughBraceParenthesis? (body ++ ';' :: behind) =
          (throughBraceParenthesis? behind).map fun x ↦ (body ++ ';' :: x.1, x.2) := by
  have hgap (g : Gap) : '{' ∉ g.text := g.not_mem (by decide)
  rcases expectToken_semicolon (show ',' ≠ ';' by decide) front with
    hcomma | ⟨g, rest, rfl, hcomma⟩
  · rcases expectToken_semicolon (show ')' ≠ ';' by decide) front with
      hparen | ⟨g, rest, rfl, hparen⟩
    · exact .inl fun behind ↦ by simp only [closing?, hcomma, hparen, Option.map_none]
    · exact .inr (.inl ⟨[], g.text ++ [')'], rest, by simp, ⟨g.text, rfl, .inr (hgap g)⟩,
        fun behind ↦ by simp only [closing?, hcomma, hparen, Option.map_some]⟩)
  · have hclosing (behind : List Char) :
        closing? (g.text ++ ',' :: rest ++ ';' :: behind) = options? (rest ++ ';' :: behind) := by
      simp only [closing?, hcomma]
    simp only [hclosing, hcomma, Option.bind_some]
    rcases options?_semicolon rest with hnone | ⟨options, token, after, rfl, hends, hsome⟩ |
      ⟨g', body, rfl, hopen⟩
    · exact .inl hnone
    · have hhead : '{' ∉ g.text ++ [','] := by simp [hgap]
      exact .inr (.inl ⟨options, g.text ++ [','] ++ token, after, by simp,
        hends.append_left hhead, hsome⟩)
    · refine .inr (.inr ⟨body, fun behind ↦ ⟨?_, hopen behind⟩⟩)
      rw [List.append_assoc, List.cons_append, expectToken_gap g' (by decide)]

/-! ### Reading a call before a semicolon -/

/-- The brace that opens options stands before a semicolon or is not found at all. -/
theorem openedOptions?_semicolon (front : List Char) :
    (∀ behind, openedOptions? (front ++ ';' :: behind) = none) ∨
      ∃ head body, front = head ++ '{' :: body ∧ (∀ c ∈ head, IsHeadChar c ∨ c = ',') ∧
        ∀ behind, openedOptions? (front ++ ';' :: behind) = some (body ++ ';' :: behind) := by
  rcases stopsAtSemicolon_callHead? front with hnone | ⟨call, head, rest, rfl, hhead, hcall⟩
  · exact .inl fun behind ↦ by rw [openedOptions?, hnone, Option.bind_none]
  · rcases expectToken_semicolon (show ',' ≠ ';' by decide) rest with hnone | ⟨g, rest, rfl, hcomma⟩
    · exact .inl fun behind ↦ by
        rw [openedOptions?, hcall, Option.bind_some, hnone, Option.bind_none]
    · rcases expectToken_semicolon (show '{' ≠ ';' by decide) rest with
        hnone | ⟨g', body, rfl, hbrace⟩
      · exact .inl fun behind ↦ by
          rw [openedOptions?, hcall, Option.bind_some, hcomma, Option.bind_some, hnone]
      · refine .inr ⟨head ++ g.text ++ ',' :: g'.text, body, by simp, fun c hc ↦ ?_,
          fun behind ↦ ?_⟩
        · simp only [List.append_assoc, List.mem_append, List.mem_cons] at hc
          rcases hc with hc | hc | rfl | hc
          · exact .inl (hhead c hc)
          · exact .inl (isHeadChar_of_isBlank c (g.isBlank_of_mem c hc))
          · exact .inr rfl
          · exact .inl (isHeadChar_of_isBlank c (g'.isBlank_of_mem c hc))
        · rw [openedOptions?, hcall, Option.bind_some, hcomma, Option.bind_some, hbrace]

/-- How the search for calls reads a place before a semicolon, for all texts behind the semicolon at
once. -/
inductive Reading (front : List Char) : Prop where
  /-- No call starts at the place. -/
  | nothing (hread : ∀ behind, associationCall? (front ++ ';' :: behind) = none)
  /-- A call starts at the place and ends before the semicolon. -/
  | call (call : AssociationCall) (token rest : List Char) (hfront : front = token ++ rest)
      (hends : EndsCall token)
      (hread : ∀ behind, associationCall? (front ++ ';' :: behind) =
        some (call, rest ++ ';' :: behind))
  /-- A call starts at the place, and its options go on behind the semicolon. -/
  | opened (call : AssociationCall) (body : List Char)
      (hopened : ∀ behind, openedOptions? (front ++ ';' :: behind) = some (body ++ ';' :: behind))
      (hread : ∀ behind, associationCall? (front ++ ';' :: behind) =
        (throughBraceParenthesis? (body ++ ';' :: behind)).map fun x ↦
          ({ call with options := x.1 }, x.2))
      (hbody : ∀ behind, throughBraceParenthesis? (body ++ ';' :: behind) =
        (throughBraceParenthesis? behind).map fun x ↦ (body ++ ';' :: x.1, x.2))

/-- **There is no fourth case.** -/
theorem reading (front : List Char) : Reading front := by
  rcases stopsAtSemicolon_callHead? front with hnone | ⟨call, head, rest, rfl, hhead, hcall⟩
  · exact .nothing fun behind ↦ by rw [associationCall?_eq, hnone, Option.bind_none]
  · have hread (behind : List Char) : associationCall? (head ++ rest ++ ';' :: behind) =
        (closing? (rest ++ ';' :: behind)).map fun x ↦ ({ call with options := x.1 }, x.2) := by
      rw [associationCall?_eq, hcall, Option.bind_some]
    rcases closing?_semicolon rest with hnone | ⟨options, token, rest, rfl, hends, hsome⟩ |
      ⟨body, hopen⟩
    · exact .nothing fun behind ↦ by rw [hread, hnone, Option.map_none]
    · have hbrace : '{' ∉ head := fun hmem ↦ absurd (hhead '{' hmem) (by decide)
      exact .call { call with options } (head ++ token) rest (List.append_assoc _ _ _).symm
        (hends.append_left hbrace) fun behind ↦ by rw [hread, hsome, Option.map_some]
    · refine .opened call body (fun behind ↦ ?_) (fun behind ↦ ?_) fun behind ↦ (hopen behind).2.2
      · rw [openedOptions?, hcall, Option.bind_some, (hopen behind).1]
      · rw [hread, (hopen behind).2.1]

end SchemaDiagram.Source
