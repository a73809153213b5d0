import Mathlib.Data.List.Basic
import SchemaDiagram.Proofs.Source.Modifier
import SchemaDiagram.Source.AssociationCall

/-!
# Written association calls

An association call as it is written: `receiver.kind(path)` or `receiver.kind(path, options)`, with
white space around every token and options in braces. Reading the call undoes writing it
(`WrittenCall.associationCall?_text`), whatever stands behind it.

## Where the options end

The options end at the first closing brace that a closing parenthesis follows. The braces that
stand among the options are those around a column, and behind them comes a comma or the last
brace, so none of them ends the options (`throughBraceParenthesis?_text`).
-/

namespace SchemaDiagram.Source

open Text

/-! ### Kinds of association -/

/-- A method name is an identifier. -/
theorem isIdentifier_keyword (kind : AssociationKind) : IsIdentifier kind.keyword.toList where
  start := by cases kind <;> exact ⟨_, _, rfl, by decide⟩
  isWordChar_of_mem := by cases kind <;> exact List.all_eq_true.1 (by decide)

theorem keyword_injective {kind other : AssociationKind} (h : kind.keyword = other.keyword) :
    kind = other := by
  have hkind := AssociationKind.ofKeyword_keyword kind
  rw [h, AssociationKind.ofKeyword_keyword other] at hkind
  exact (Except.ok.inj hkind).symm

/-- A keyword is read whole: the one that is the front of another is not taken for it. -/
theorem kindAndParenthesis?_append (kind : AssociationKind) (g : Gap) (rest : List Char) :
    kindAndParenthesis? (kind.keyword.toList ++ (g.text ++ '(' :: rest)) = some (kind, rest) := by
  have hparen : isBlank '(' = false := by decide
  have hread : ((expectWord kind.keyword.toList
      (kind.keyword.toList ++ (g.text ++ '(' :: rest))).bind fun text ↦
        (expectToken '(' text).bind fun after ↦ some (kind, after)) = some (kind, rest) := by
    rw [expectWord_append, Option.bind_some, expectToken_gap g hparen, Option.bind_some]
  rcases hfound : kindAndParenthesis? (kind.keyword.toList ++ (g.text ++ '(' :: rest))
    with - | ⟨other, after⟩
  · have hnone := List.findSome?_eq_none_iff.1 hfound kind kind.mem_all
    exact absurd (hread.symm.trans hnone) (Option.some_ne_none _)
  · -- whichever keyword is found, the parenthesis behind it shows where it ends
    obtain ⟨candidate, -, hcandidate⟩ := List.exists_of_findSome?_eq_some hfound
    simp only [Option.bind_eq_bind, Option.bind_eq_some_iff, Option.some.injEq,
      Prod.mk.injEq] at hcandidate
    obtain ⟨text, htext, after', hafter, rfl, rfl⟩ := hcandidate
    obtain ⟨g', hg'⟩ := eq_gap_append_of_expectToken hafter
    rw [expectWord_eq_some_iff, hg'] at htext
    have hkeyword : kind.keyword.toList = candidate.keyword.toList :=
      eq_of_word_append (isIdentifier_keyword kind).isWordChar_of_mem
        (isIdentifier_keyword candidate).isWordChar_of_mem
        (startsWord_gap_cons g (by decide) rest) (startsWord_gap_cons g' (by decide) after') htext
    obtain rfl : kind = candidate := keyword_injective (String.toList_inj.1 hkeyword)
    rw [← hg'] at htext
    obtain rfl : g.text ++ '(' :: rest = text := List.append_cancel_left htext
    rw [expectToken_gap g hparen] at hafter
    rw [Option.some.inj hafter]

/-! ### Where the options end -/

/-- The search for the end of the options goes on behind a front part if no closing parenthesis
follows any of its closing braces. -/
theorem throughBraceParenthesis?_append {front rest body after : List Char}
    (hfront : ∀ before behind, front = before ++ '}' :: behind →
      expectToken ')' (behind ++ rest) = none)
    (h : throughBraceParenthesis? rest = some (body, after)) :
    throughBraceParenthesis? (front ++ rest) = some (front ++ body, after) := by
  induction front with
  | nil => exact h
  | cons c front ih =>
    have hhere : (if c = '}' then expectToken ')' (front ++ rest) else none) = none := by
      by_cases hc : c = '}'
      · rw [if_pos hc]
        exact hfront [] front (by rw [hc]; rfl)
      · rw [if_neg hc]
    have hnext := ih fun before behind hsplit ↦ hfront (c :: before) behind (by rw [hsplit]; rfl)
    rw [List.cons_append, throughBraceParenthesis?, hhere]
    simp only [hnext, Option.map_some, List.cons_append]

/-- Behind every closing brace of a part there is white space only. -/
def OnlyBlanksAfterBraces (part : List Char) : Prop :=
  ∀ before behind, part = before ++ '}' :: behind → ∃ g : Gap, behind = g.text

/-- A part before a comma or a brace is passed over. -/
theorem OnlyBlanksAfterBraces.throughBraceParenthesis? {part rest body after : List Char} {c : Char}
    (hpart : OnlyBlanksAfterBraces part) (hblank : isBlank c = false) (hne : c ≠ ')')
    (h : throughBraceParenthesis? (c :: rest) = some (body, after)) :
    Source.throughBraceParenthesis? (part ++ c :: rest) = some (part ++ body, after) := by
  refine throughBraceParenthesis?_append (fun before behind hsplit ↦ ?_) h
  obtain ⟨g, rfl⟩ := hpart before behind hsplit
  exact expectToken_gap_ne g hblank hne rest

theorem onlyBlanksAfterBraces_of_not_mem {part : List Char} (h : '}' ∉ part) :
    OnlyBlanksAfterBraces part := by
  rintro before behind rfl
  exact absurd (List.mem_append_right before List.mem_cons_self) h

theorem brace_not_mem_keyword (key : ModifierKey) : '}' ∉ key.keyword := fun h ↦
  absurd (key.isWordChar_of_mem_keyword _ h) (by decide)

theorem WrittenModifier.brace_not_mem_quotedText (m : WrittenModifier) : '}' ∉ m.quotedText := by
  have hquote : '}' ≠ m.quote := by
    intro h
    exact absurd m.isQuote_quote (by rw [← h]; decide)
  simp [quotedText, hquote, m.brace_not_mem_value]

/-- The only closing brace of a modifier is that of its object, which is the last token. -/
theorem WrittenModifier.onlyBlanksAfterBraces (m : WrittenModifier) :
    OnlyBlanksAfterBraces m.text := by
  have hgap : ∀ g : Gap, '}' ∉ g.text := fun g ↦ g.not_mem (by decide)
  rcases hobject : m.object with - | o
  · refine onlyBlanksAfterBraces_of_not_mem ?_
    simp [text, valueText, hobject, hgap, brace_not_mem_keyword, m.brace_not_mem_quotedText]
  · -- cut at the brace that closes the object, in front of which there is no other
    obtain ⟨front, hfront, htext⟩ : ∃ front, '}' ∉ front ∧
        m.text = front ++ '}' :: m.behind.text := by
      refine ⟨m.before.text ++ m.key.keyword ++ m.beforeColon.text ++ ':' :: m.afterColon.text ++
        '{' :: o.afterBrace.text ++ ['n', 'a', 'm', 'e'] ++ o.beforeColon.text ++ ':' ::
        o.afterColon.text ++ m.quotedText ++ o.beforeBrace.text, ?_, ?_⟩
      · simp [hgap, brace_not_mem_keyword, m.brace_not_mem_quotedText]
      · simp [text, valueText, hobject, ColumnObject.text]
    intro before behind hsplit
    rw [htext] at hsplit
    exact ⟨m.behind,
      ((List.append_cons_inj_of_notMem hfront (hgap m.behind)).1 hsplit).2.2.symm⟩

/-- A closing brace that a closing parenthesis follows ends the options. -/
theorem throughBraceParenthesis?_brace (g : Gap) (rest : List Char) :
    throughBraceParenthesis? ('}' :: (g.text ++ ')' :: rest)) = some ([], rest) := by
  have hparen : isBlank ')' = false := by decide
  simp only [throughBraceParenthesis?, if_true, expectToken_gap g hparen]

/-- **The options end where they are written to end**: at the brace behind the last of them. -/
theorem throughBraceParenthesis?_text (o : WrittenOptions) (g : Gap) (rest : List Char) :
    throughBraceParenthesis? (o.text ++ '}' :: (g.text ++ ')' :: rest)) =
      some (o.text, rest) := by
  obtain ⟨modifiers, trailing⟩ := o
  have hend := throughBraceParenthesis?_brace g rest
  have hgap (front : Gap) : throughBraceParenthesis?
      (front.text ++ '}' :: (g.text ++ ')' :: rest)) = some (front.text, rest) := by
    have hbrace : '}' ∉ front.text := front.not_mem (by decide)
    have hpart := onlyBlanksAfterBraces_of_not_mem hbrace
    simpa using hpart.throughBraceParenthesis? (by decide) (by decide) hend
  induction modifiers with
  | nil =>
    rcases trailing with - | front
    · exact hend
    · simpa [WrittenOptions.text, WrittenOptions.parts] using hgap front
  | cons m modifiers ih =>
    have hpart := m.onlyBlanksAfterBraces
    rcases WrittenOptions.text_cons m modifiers trailing with ⟨rfl, rfl, htext⟩ | htext
    · simpa [htext] using hpart.throughBraceParenthesis? (by decide) (by decide) hend
    · -- the comma is no brace, so the search goes on into the other options
      have hcomma : throughBraceParenthesis? (',' :: (WrittenOptions.text ⟨modifiers, trailing⟩ ++
          '}' :: (g.text ++ ')' :: rest))) =
            some (',' :: WrittenOptions.text ⟨modifiers, trailing⟩, rest) := by
        rw [throughBraceParenthesis?, if_neg (by decide)]
        simp only [ih, Option.map_some]
      rw [htext, List.append_assoc, List.cons_append]
      exact hpart.throughBraceParenthesis? (by decide) (by decide) hcomma

/-! ### Dotted paths -/

/-- An identifier before the last one of a dotted path, and the dot behind it. -/
structure Qualifier where
  /-- The identifier. -/
  name : List Char
  /-- White space between the identifier and the dot. -/
  beforeDot : Gap
  /-- White space behind the dot. -/
  afterDot : Gap
  isIdentifier_name : IsIdentifier name

/-- The qualifier as it is written. -/
def Qualifier.text (q : Qualifier) : List Char :=
  q.name ++ q.beforeDot.text ++ '.' :: q.afterDot.text

/-- A dotted path starts with its first identifier, not with white space. -/
theorem skipBlanks_of_dottedPath? {text : List Char} {answer : List Char × List Char}
    (h : dottedPath? text = some answer) : skipBlanks text = text := by
  obtain ⟨first, hfirst, -⟩ := Option.map_eq_some_iff.1 h
  rcases text with - | ⟨c, rest⟩
  · rfl
  · by_cases hc : isIdentifierStart c = true
    · exact skipBlanks_cons (isBlank_of_isWordChar (isWordChar_of_isIdentifierStart hc)) rest
    · rw [identifier?, if_neg hc] at hfirst
      exact absurd hfirst.symm (Option.some_ne_none first)

theorem dottedTail_eq_cons {text name rest : List Char}
    (h : (expectToken '.' text).bind (fun rest ↦ identifier? (skipBlanks rest)) =
      some (name, rest)) :
    dottedTail text = (name :: (dottedTail rest).1, (dottedTail rest).2) := by
  rw [dottedTail]
  split
  · next name' rest' h' =>
    obtain ⟨rfl, rfl⟩ : name = name' ∧ rest = rest' := by simpa [h] using h'
    rfl
  · next h' => exact absurd (h.symm.trans h') (Option.some_ne_none _)

theorem dottedTail_eq_nil {text : List Char} (h : expectToken '.' text = none) :
    dottedTail text = ([], text) := by
  rw [dottedTail, h]
  rfl

/-- A qualifier in front does not change which identifier of a path is the last. -/
theorem Qualifier.dottedPath?_append (q : Qualifier) {path : List Char}
    {answer : List Char × List Char} (h : dottedPath? path = some answer) :
    dottedPath? (q.text ++ path) = some answer := by
  have hskip := skipBlanks_of_dottedPath? h
  obtain ⟨⟨first, behind⟩, hfirst, rfl⟩ := Option.map_eq_some_iff.1 h
  have htext : q.text ++ path =
      q.name ++ (q.beforeDot.text ++ '.' :: (q.afterDot.text ++ path)) := by
    simp [text]
  have hdot : (expectToken '.' (q.beforeDot.text ++ '.' :: (q.afterDot.text ++ path))).bind
      (fun rest ↦ identifier? (skipBlanks rest)) = some (first, behind) := by
    rw [expectToken_gap q.beforeDot (by decide), Option.bind_some, skipBlanks_gap, hskip, hfirst]
  rw [htext, dottedPath?, identifier?_append q.isIdentifier_name
    (startsWord_gap_cons q.beforeDot (by decide) _), Option.map_some]
  show some ((dottedTail _).1.getLastD q.name, (dottedTail _).2) = some _
  rw [dottedTail_eq_cons hdot, List.getLastD_cons]

/-- **A dotted path is read as its last identifier**, however many come before it. -/
theorem dottedPath?_qualified (qualifiers : List Qualifier) {target rest : List Char}
    (htarget : IsIdentifier target) (hword : startsWord rest = false)
    (hdot : expectToken '.' rest = none) :
    dottedPath? (qualifiers.flatMap Qualifier.text ++ (target ++ rest)) = some (target, rest) := by
  induction qualifiers with
  | nil =>
    rw [List.flatMap_nil, List.nil_append, dottedPath?, identifier?_append htarget hword,
      Option.map_some]
    show some ((dottedTail rest).1.getLastD target, (dottedTail rest).2) = some _
    rw [dottedTail_eq_nil hdot]
    rfl
  | cons q qualifiers ih =>
    rw [List.flatMap_cons, List.append_assoc]
    exact q.dottedPath?_append ih

/-! ### Calls -/

/-- The second argument of a call: options in braces. -/
structure OptionsArgument where
  /-- White space before the comma. -/
  beforeComma : Gap
  /-- White space between the comma and the opening brace. -/
  beforeBrace : Gap
  /-- What stands between the braces. -/
  options : WrittenOptions

/-- An association call as it is written. -/
structure WrittenCall where
  /-- What the method is called on. -/
  receiver : List Char
  /-- White space between the receiver and the dot. -/
  beforeDot : Gap
  /-- White space between the dot and the method. -/
  afterDot : Gap
  /-- The method. -/
  kind : AssociationKind
  /-- White space between the method and the opening parenthesis. -/
  beforeOpening : Gap
  /-- White space behind the opening parenthesis. -/
  afterOpening : Gap
  /-- The identifiers before the target. -/
  qualifiers : List Qualifier
  /-- The last identifier of the first argument. -/
  target : List Char
  /-- The options, if there are any. -/
  argument : Option OptionsArgument
  /-- White space before the closing parenthesis. -/
  beforeClosing : Gap
  isIdentifier_receiver : IsIdentifier receiver
  isIdentifier_target : IsIdentifier target

/-- The options argument as it is written. -/
def OptionsArgument.text (argument : OptionsArgument) : List Char :=
  argument.beforeComma.text ++ ',' :: argument.beforeBrace.text ++ '{' ::
    argument.options.text ++ ['}']

namespace WrittenCall

variable (w : WrittenCall)

/-- The first argument as it is written. -/
def pathText : List Char := w.qualifiers.flatMap Qualifier.text ++ w.target

/-- What stands behind the first argument. -/
def closingText : List Char :=
  (w.argument.elim [] OptionsArgument.text) ++ w.beforeClosing.text ++ [')']

/-- The call as it is written. -/
def text : List Char :=
  w.receiver ++ w.beforeDot.text ++ '.' :: w.afterDot.text ++ w.kind.keyword.toList ++
    w.beforeOpening.text ++ '(' :: w.afterOpening.text ++ w.pathText ++ w.closingText

/-- The call that is written. -/
def call : AssociationCall where
  receiver := w.receiver
  kind := w.kind
  target := w.target
  options := w.argument.elim [] fun argument ↦ argument.options.text

/-- White space and a character of no word stand behind the first argument, and no dot. -/
theorem exists_closingText_append (rest : List Char) :
    ∃ (g : Gap) (c : Char) (more : List Char), w.closingText ++ rest = g.text ++ c :: more ∧
      (c = ',' ∨ c = ')') := by
  rcases hargument : w.argument with - | argument
  · exact ⟨w.beforeClosing, ')', rest, by simp [closingText, hargument], .inr rfl⟩
  · exact ⟨argument.beforeComma, ',', _, by
      simp only [closingText, hargument, Option.elim_some, OptionsArgument.text, List.append_assoc,
        List.cons_append]
      rfl, .inl rfl⟩

theorem closing?_closingText (rest : List Char) :
    closing? (w.closingText ++ rest) = some (w.call.options, rest) := by
  rcases hargument : w.argument with - | argument
  · have htext : w.closingText ++ rest = w.beforeClosing.text ++ ')' :: rest := by
      simp [closingText, hargument]
    rw [closing?, htext, expectToken_gap_ne w.beforeClosing (by decide) (by decide)]
    simp only [expectToken_gap w.beforeClosing (show isBlank ')' = false by decide),
      Option.map_some, call, hargument, Option.elim_none]
  · have htext : w.closingText ++ rest = argument.beforeComma.text ++ ',' ::
        (argument.beforeBrace.text ++ '{' :: (argument.options.text ++ '}' ::
          (w.beforeClosing.text ++ ')' :: rest))) := by
      simp [closingText, hargument, OptionsArgument.text]
    rw [closing?, htext, expectToken_gap argument.beforeComma (by decide)]
    simp only [options?,
      skipBlanks_gap_cons argument.beforeBrace (show isBlank '{' = false by decide), if_true,
      throughBraceParenthesis?_text, call, hargument, Option.elim_some]

theorem dottedPath?_pathText (rest : List Char) :
    dottedPath? (w.pathText ++ (w.closingText ++ rest)) =
      some (w.target, w.closingText ++ rest) := by
  obtain ⟨g, c, more, hclosing, hc⟩ := w.exists_closingText_append rest
  have hword : startsWord (w.closingText ++ rest) = false := by
    rw [hclosing]
    rcases hc with rfl | rfl <;> exact startsWord_gap_cons g (by decide) more
  have hdot : expectToken '.' (w.closingText ++ rest) = none := by
    rw [hclosing]
    rcases hc with rfl | rfl <;> exact expectToken_gap_ne g (by decide) (by decide) more
  rw [pathText, List.append_assoc]
  exact dottedPath?_qualified w.qualifiers w.isIdentifier_target hword hdot

/-- **Reading a call undoes writing it**, whatever stands behind it. -/
theorem associationCall?_text (rest : List Char) :
    associationCall? (w.text ++ rest) = some (w.call, rest) := by
  have htext : w.text ++ rest = w.receiver ++ (w.beforeDot.text ++ '.' :: (w.afterDot.text ++
      (w.kind.keyword.toList ++ (w.beforeOpening.text ++ '(' :: (w.afterOpening.text ++
        (w.pathText ++ (w.closingText ++ rest))))))) := by
    simp [text]
  have hpath := w.dottedPath?_pathText rest
  have hkind := skipBlanks_gap_identifier w.afterDot (isIdentifier_keyword w.kind)
  rw [htext]
  simp only [associationCall?, identifier?_append w.isIdentifier_receiver
    (startsWord_gap_cons w.beforeDot (show isWordChar '.' = false by decide) _),
    expectToken_gap w.beforeDot (show isBlank '.' = false by decide), hkind,
    kindAndParenthesis?_append, skipBlanks_gap, skipBlanks_of_dottedPath? hpath, hpath,
    w.closing?_closingText, Option.bind_eq_bind, Option.bind_some]
  rfl

end WrittenCall

/-! ### Searching for calls -/

/-- The search goes on behind a call that it finds. -/
theorem associationCalls_eq_cons {text rest : List Char} {call : AssociationCall}
    (h : associationCall? text = some (call, rest)) (position : Nat) :
    ∃ behind, associationCalls position text =
      (position, call) :: associationCalls behind rest := by
  cases text with
  | nil => exact absurd h.symm (Option.some_ne_none _)
  | cons c text =>
    refine ⟨position + (text.length + 1 - rest.length), ?_⟩
    rw [associationCalls]
    split
    · next call' rest' h' =>
      obtain ⟨rfl, rfl⟩ : call = call' ∧ rest = rest' := by simpa [h] using h'
      rfl
    · next h' => exact absurd (h.symm.trans h') (Option.some_ne_none _)

/-- No call starts at a character with which no identifier starts. -/
theorem associationCalls_append {front : List Char}
    (hfront : ∀ c ∈ front, isIdentifierStart c = false) (position : Nat) (rest : List Char) :
    associationCalls position (front ++ rest) =
      associationCalls (position + front.length) rest := by
  induction front generalizing position with
  | nil => rfl
  | cons c front ih =>
    have hnone : associationCall? (c :: (front ++ rest)) = none := by
      simp [associationCall?, identifier?, hfront c List.mem_cons_self]
    rw [List.cons_append, associationCalls]
    split
    · next h => exact absurd (hnone.symm.trans h).symm (Option.some_ne_none _)
    · rw [ih fun d hd ↦ hfront d (List.mem_cons_of_mem c hd), List.length_cons]
      congr 1
      omega

end SchemaDiagram.Source
