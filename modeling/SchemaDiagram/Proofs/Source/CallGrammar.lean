import SchemaDiagram.Proofs.Source.CallReading
import SchemaDiagram.Proofs.Source.Name

/-!
# The grammar of association calls

Which texts are association calls, said without the readers: `receiver.kind(path)`, and behind the
path there may be a comma with any text between braces or with the name of a variable
(`CallForm`). The reader for calls finds one at the front of a text exactly if a text of the grammar
stands there (`associationCall?_eq_none_iff`), and then it reads the shortest one
(`length_le_of_associationCall?`).

## Why the shortest

Up to the path nothing can be read in two ways, since an identifier is followed by a character of no
word, and a text that goes on behind its path with a comma cannot end there. Only text between
braces can end in several places. The reader takes the first closing brace that a closing
parenthesis follows, so it stops before any other reading does (`length_le_of_isOptionsEnd`).
-/

namespace SchemaDiagram.Source

open Text

/-! ### The front of a call -/

/-- The front of an association call as it is written, up to its target. -/
structure CallHead where
  /-- What the method is called on. -/
  receiver : List Char
  /-- White space between the receiver and the dot. -/
  beforeDot : Gap
  /-- White space between the dot and the method. -/
  afterDot : Gap
  /-- The method. -/
  kind : AssociationKind
  /-- White space between the method and the opening parenthesis. -/
  beforeOpening : Gap
  /-- White space behind the opening parenthesis. -/
  afterOpening : Gap
  /-- The identifiers before the target. -/
  qualifiers : List Qualifier
  /-- The last identifier of the first argument. -/
  target : List Char
  isIdentifier_receiver : IsIdentifier receiver
  isIdentifier_target : IsIdentifier target

namespace CallHead

variable (h : CallHead)

/-- The front of the call as it is written. -/
def text : List Char :=
  h.receiver ++ h.beforeDot.text ++ '.' :: h.afterDot.text ++ h.kind.keyword.toList ++
    h.beforeOpening.text ++ '(' :: h.afterOpening.text ++ h.qualifiers.flatMap Qualifier.text ++
    h.target

/-- The call without its options. -/
def call : AssociationCall where
  receiver := h.receiver
  kind := h.kind
  target := h.target
  options := []

/-- **The front of a call is read back** where its target ends. -/
theorem callHead?_text {rest : List Char} (hword : startsWord rest = false)
    (hdot : expectToken '.' rest = none) : callHead? (h.text ++ rest) = some (h.call, rest) := by
  have htext : h.text ++ rest = h.receiver ++ (h.beforeDot.text ++ '.' :: (h.afterDot.text ++
      (h.kind.keyword.toList ++ (h.beforeOpening.text ++ '(' :: (h.afterOpening.text ++
        (h.qualifiers.flatMap Qualifier.text ++ (h.target ++ rest))))))) := by
    simp [text]
  have hpath := dottedPath?_qualified h.qualifiers h.isIdentifier_target hword hdot
  have hkind := skipBlanks_gap_identifier h.afterDot (isIdentifier_keyword h.kind)
  rw [htext]
  simp only [callHead?, identifier?_append h.isIdentifier_receiver
    (startsWord_gap_cons h.beforeDot (show isWordChar '.' = false by decide) _),
    expectToken_gap h.beforeDot (show isBlank '.' = false by decide), hkind,
    kindAndParenthesis?_append, skipBlanks_gap, skipBlanks_of_dottedPath? hpath, hpath,
    Option.bind_eq_bind, Option.bind_some]
  rfl

end CallHead

theorem eq_append_of_identifier? {text name rest : List Char}
    (h : identifier? text = some (name, rest)) : text = name ++ rest := by
  cases text with
  | nil => exact absurd h.symm (Option.some_ne_none _)
  | cons c text =>
    rw [identifier?] at h
    split at h
    · obtain ⟨rfl, rfl⟩ := Prod.mk.inj (Option.some.inj h)
      rw [List.cons_append, List.takeWhile_append_dropWhile]
    · exact absurd h.symm (Option.some_ne_none _)

/-- What a dotted path is read from: its first identifier may turn out to be a qualifier, and so on
up to its last. -/
theorem exists_qualifiers_of_dottedTail (text : List Char) :
    ∀ {first : List Char}, IsIdentifier first →
      ∃ (qualifiers : List Qualifier) (target : List Char), IsIdentifier target ∧
        (dottedTail text).1.getLastD first = target ∧
        first ++ text = qualifiers.flatMap Qualifier.text ++ (target ++ (dottedTail text).2) := by
  fun_induction dottedTail text with
  | case1 text name rest hread tail =>
    rename_i ih
    intro first hfirst
    obtain ⟨mid, hmid, hname⟩ := Option.bind_eq_some_iff.1 hread
    obtain ⟨beforeDot, rfl⟩ := eq_gap_append_of_expectToken hmid
    obtain ⟨afterDot, hafter⟩ := exists_gap_append_skipBlanks mid
    rw [eq_append_of_identifier? hname] at hafter
    obtain ⟨qualifiers, target, htarget, hlast, htext⟩ := ih (isIdentifier_of_identifier? hname)
    refine ⟨⟨first, beforeDot, afterDot, hfirst⟩ :: qualifiers, target, htarget, ?_, ?_⟩
    · rw [List.getLastD_cons, hlast]
    · rw [hafter, htext]
      simp [Qualifier.text, tail]
  | case2 text hread => exact fun {first} hfirst ↦ ⟨[], first, hfirst, rfl, rfl⟩

theorem exists_of_dottedPath? {text target rest : List Char}
    (h : dottedPath? text = some (target, rest)) :
    IsIdentifier target ∧ ∃ qualifiers : List Qualifier,
      text = qualifiers.flatMap Qualifier.text ++ (target ++ rest) := by
  obtain ⟨⟨first, mid⟩, hfirst, heq⟩ := Option.map_eq_some_iff.1 h
  obtain ⟨rfl, rfl⟩ := Prod.mk.inj heq
  obtain ⟨qualifiers, target, htarget, hlast, htext⟩ :=
    exists_qualifiers_of_dottedTail mid (isIdentifier_of_identifier? hfirst)
  subst hlast
  exact ⟨htarget, qualifiers, by rw [eq_append_of_identifier? hfirst, htext]⟩

theorem exists_of_kindAndParenthesis? {text rest : List Char} {kind : AssociationKind}
    (h : kindAndParenthesis? text = some (kind, rest)) :
    ∃ g : Gap, text = kind.keyword.toList ++ (g.text ++ '(' :: rest) := by
  obtain ⟨candidate, -, hcandidate⟩ := List.exists_of_findSome?_eq_some h
  simp only [Option.bind_eq_bind, Option.bind_eq_some_iff, Option.some.injEq,
    Prod.mk.injEq] at hcandidate
  obtain ⟨mid, hmid, after, hafter, rfl, rfl⟩ := hcandidate
  obtain ⟨g, hg⟩ := eq_gap_append_of_expectToken hafter
  exact ⟨g, by rw [expectWord_eq_some_iff.1 hmid, hg]⟩

/-- What the front of a call is read from. -/
theorem exists_callHead_of_callHead? {text rest : List Char} {call : AssociationCall}
    (h : callHead? text = some (call, rest)) :
    ∃ head : CallHead, head.call = call ∧ text = head.text ++ rest := by
  simp only [callHead?, Option.bind_eq_bind, Option.bind_eq_some_iff, Option.some.injEq,
    Prod.mk.injEq, Prod.exists] at h
  obtain ⟨receiver, r₁, h₁, r₂, h₂, kind, r₃, h₃, target, r₄, h₄, rfl, rfl⟩ := h
  obtain ⟨beforeDot, rfl⟩ := eq_gap_append_of_expectToken h₂
  obtain ⟨afterDot, hafterDot⟩ := exists_gap_append_skipBlanks r₂
  obtain ⟨beforeOpening, hkind⟩ := exists_of_kindAndParenthesis? h₃
  obtain ⟨afterOpening, hafterOpening⟩ := exists_gap_append_skipBlanks r₃
  obtain ⟨htarget, qualifiers, hpath⟩ := exists_of_dottedPath? h₄
  have hreceiver := isIdentifier_of_identifier? h₁
  refine ⟨⟨receiver, beforeDot, afterDot, kind, beforeOpening, afterOpening, qualifiers, target,
    hreceiver, htarget⟩, rfl, ?_⟩
  rw [eq_append_of_identifier? h₁, hafterDot, hkind, hafterOpening, hpath]
  simp [CallHead.text]

/-! ### Calls -/

/-- The name of a variable, which may be a member of something. -/
structure IsVariablePath (name : List Char) : Prop where
  /-- It starts as an identifier does. -/
  start : ∃ c rest, name = c :: rest ∧ isIdentifierStart c = true
  /-- It goes on over word characters and dots. -/
  inVariablePath_of_mem : ∀ c ∈ name, inVariablePath c = true

/-- What stands between the first argument of a call and the white space before its closing
parenthesis. -/
inductive SecondArgument where
  /-- Nothing. -/
  | absent
  /-- A comma and any text between braces. -/
  | braces (beforeComma beforeBrace : Gap) (options : List Char)
  /-- A comma and the name of a variable. -/
  | named (beforeComma beforeName : Gap) (name : List Char) (h : IsVariablePath name)

namespace SecondArgument

/-- The argument as it is written. -/
def text : SecondArgument → List Char
  | absent => []
  | braces beforeComma beforeBrace options =>
    beforeComma.text ++ ',' :: beforeBrace.text ++ '{' :: options ++ ['}']
  | named beforeComma beforeName name _ => beforeComma.text ++ ',' :: beforeName.text ++ name

/-- The text between the braces, if there are any. -/
def options : SecondArgument → List Char
  | braces _ _ options => options
  | absent | named _ _ _ _ => []

end SecondArgument

/-- An association call, as any text that has the form of one. -/
structure CallForm where
  /-- What stands up to the target. -/
  head : CallHead
  /-- What stands behind the target. -/
  argument : SecondArgument
  /-- White space before the closing parenthesis. -/
  beforeClosing : Gap

namespace CallForm

variable (c : CallForm)

/-- What stands behind the target. -/
def closingText : List Char := c.argument.text ++ c.beforeClosing.text ++ [')']

/-- The call as it is written. -/
def text : List Char := c.head.text ++ c.closingText

/-- The call that is written. -/
def call : AssociationCall := { c.head.call with options := c.argument.options }

/-- Behind the target stand white space and a character that ends it. -/
theorem exists_closingText_eq (rest : List Char) :
    ∃ (g : Gap) (d : Char) (more : List Char), c.closingText ++ rest = g.text ++ d :: more ∧
      (d = ',' ∨ d = ')') := by
  rcases hargument : c.argument with - | ⟨g, g', options⟩ | ⟨g, g', name, hname⟩
  · exact ⟨c.beforeClosing, ')', rest, by simp [closingText, hargument, SecondArgument.text],
      .inr rfl⟩
  · exact ⟨g, ',', g'.text ++ '{' :: options ++ '}' :: c.beforeClosing.text ++ ')' :: rest,
      by simp [closingText, hargument, SecondArgument.text], .inl rfl⟩
  · exact ⟨g, ',', g'.text ++ name ++ c.beforeClosing.text ++ ')' :: rest,
      by simp [closingText, hargument, SecondArgument.text], .inl rfl⟩

theorem callHead?_text (rest : List Char) :
    callHead? (c.text ++ rest) = some (c.head.call, c.closingText ++ rest) := by
  obtain ⟨g, d, more, hclosing, hd⟩ := c.exists_closingText_eq rest
  rw [text, List.append_assoc]
  refine c.head.callHead?_text ?_ ?_ <;> rw [hclosing]
  · rcases hd with rfl | rfl <;> exact startsWord_gap_cons g (by decide) more
  · rcases hd with rfl | rfl <;> exact expectToken_gap_ne g (by decide) (by decide) more

end CallForm

/-! ### Where options end -/

/-- A closing brace that a closing parenthesis follows, with the text in front of the brace and the
text behind the parenthesis. -/
def IsOptionsEnd (text body after : List Char) : Prop :=
  ∃ g : Gap, text = body ++ '}' :: (g.text ++ ')' :: after)

/-- The options end at a place, or they do not and go on behind it. -/
theorem throughBraceParenthesis?_cons_eq_some {c : Char} {text body after : List Char}
    (h : throughBraceParenthesis? (c :: text) = some (body, after)) :
    (c = '}' ∧ body = [] ∧ expectToken ')' text = some after) ∨
      ((c = '}' → expectToken ')' text = none) ∧
        ∃ inner, body = c :: inner ∧ throughBraceParenthesis? text = some (inner, after)) := by
  rw [throughBraceParenthesis?] at h
  split at h
  · next hend =>
    obtain ⟨rfl, rfl⟩ := Prod.mk.inj (Option.some.inj h)
    split at hend
    · next hc => exact .inl ⟨hc, rfl, hend⟩
    · exact absurd hend.symm (Option.some_ne_none _)
  · next hend =>
    obtain ⟨⟨inner, after'⟩, hinner, heq⟩ := Option.map_eq_some_iff.1 h
    obtain ⟨rfl, rfl⟩ := Prod.mk.inj heq
    exact .inr ⟨fun hc ↦ by rwa [if_pos hc] at hend, inner, rfl, hinner⟩

theorem isOptionsEnd_of_throughBraceParenthesis? {text body after : List Char}
    (h : throughBraceParenthesis? text = some (body, after)) : IsOptionsEnd text body after := by
  induction text generalizing body with
  | nil => exact absurd h.symm (Option.some_ne_none _)
  | cons c text ih =>
    rcases throughBraceParenthesis?_cons_eq_some h with ⟨rfl, rfl, hafter⟩ | ⟨-, inner, rfl, hinner⟩
    · obtain ⟨g, rfl⟩ := eq_gap_append_of_expectToken hafter
      exact ⟨g, rfl⟩
    · obtain ⟨g, rfl⟩ := ih hinner
      exact ⟨g, rfl⟩

/-- **Options end as soon as they can.** -/
theorem length_le_of_isOptionsEnd {text body after body' after' : List Char}
    (h : throughBraceParenthesis? text = some (body, after)) (h' : IsOptionsEnd text body' after') :
    after'.length ≤ after.length := by
  have hparen : isBlank ')' = false := by decide
  obtain ⟨g', h'⟩ := h'
  induction text generalizing body body' with
  | nil => exact absurd h.symm (Option.some_ne_none _)
  | cons c text ih =>
    rcases throughBraceParenthesis?_cons_eq_some h with ⟨rfl, -, hafter⟩ | ⟨hnone, inner, -, hinner⟩
    · obtain ⟨g, rfl⟩ := eq_gap_append_of_expectToken hafter
      cases body' with
      | nil =>
        rw [(List.cons.inj h').2, expectToken_gap g' hparen] at hafter
        exact Nat.le_of_eq (congrArg List.length (Option.some.inj hafter))
      | cons d body' =>
        -- the other end is at a brace behind the parenthesis
        obtain ⟨mid, -, rfl⟩ := g.exists_of_append_eq (show '}' ≠ ')' by decide) (by decide)
          (List.cons.inj h').2
        simp only [List.length_append, List.length_cons]
        omega
    · cases body' with
      | nil =>
        obtain ⟨rfl, htext⟩ := List.cons.inj h'
        rw [htext, expectToken_gap g' hparen] at hnone
        exact absurd (hnone rfl) (Option.some_ne_none _)
      | cons d body' => exact ih hinner (List.cons.inj h').2

/-! ### Reading a call -/

theorem dropWhile_inVariablePath {name : List Char} (h : IsVariablePath name) (g : Gap)
    (rest : List Char) : (name ++ (g.text ++ ')' :: rest)).dropWhile inVariablePath =
      g.text ++ ')' :: rest := by
  rw [List.dropWhile_append_of_pos h.inVariablePath_of_mem]
  rcases hg : g.text with - | ⟨c, more⟩
  · rfl
  · have hblank : isBlank c = true := g.isBlank_of_mem c (by rw [hg]; exact List.mem_cons_self)
    have hdot : c ≠ '.' := by
      rintro rfl
      exact absurd hblank (by decide)
    simp [inVariablePath, isWordChar_of_isBlank hblank, hdot]

namespace CallForm

variable (c : CallForm)

/-- What is read behind the target: options in braces end at the first place where they can. -/
theorem closing?_closingText (rest : List Char) :
    closing? (c.closingText ++ rest) = match c.argument with
      | .absent | .named _ _ _ _ => some ([], rest)
      | .braces _ _ options =>
        throughBraceParenthesis? (options ++ '}' :: (c.beforeClosing.text ++ ')' :: rest)) := by
  have hparen : isBlank ')' = false := by decide
  rcases hargument : c.argument with - | ⟨g, g', options⟩ | ⟨g, g', name, hname⟩
  · have htext : c.closingText ++ rest = c.beforeClosing.text ++ ')' :: rest := by
      simp [closingText, hargument, SecondArgument.text]
    rw [closing?, htext, expectToken_gap_ne c.beforeClosing hparen (by decide)]
    simp only [expectToken_gap c.beforeClosing hparen, Option.map_some]
  · have htext : c.closingText ++ rest = g.text ++ ',' :: (g'.text ++ '{' :: (options ++ '}' ::
        (c.beforeClosing.text ++ ')' :: rest))) := by
      simp [closingText, hargument, SecondArgument.text]
    rw [closing?, htext, expectToken_gap g (by decide)]
    simp only [options?, skipBlanks_gap_cons g' (show isBlank '{' = false by decide), if_true]
  · have htext : c.closingText ++ rest =
        g.text ++ ',' :: (g'.text ++ (name ++ (c.beforeClosing.text ++ ')' :: rest))) := by
      simp [closingText, hargument, SecondArgument.text]
    have hdrop := dropWhile_inVariablePath hname c.beforeClosing rest
    obtain ⟨d, more, rfl, hd⟩ := hname.start
    have hbrace : d ≠ '{' := by
      rintro rfl
      exact absurd hd (by decide)
    have hpath : inVariablePath d = true := hname.inVariablePath_of_mem d List.mem_cons_self
    rw [List.cons_append, List.dropWhile_cons_of_pos hpath] at hdrop
    have hblank := isBlank_of_isWordChar (isWordChar_of_isIdentifierStart hd)
    rw [closing?, htext, expectToken_gap g (by decide)]
    simp only [options?, List.cons_append, skipBlanks_gap_cons g' hblank, if_neg hbrace, hd,
      if_true, hdrop, expectToken_gap c.beforeClosing hparen, Option.map_some]

theorem associationCall?_text (rest : List Char) :
    associationCall? (c.text ++ rest) = (closing? (c.closingText ++ rest)).map fun x ↦
      ({ c.head.call with options := x.1 }, x.2) := by
  rw [associationCall?_eq, c.callHead?_text, Option.bind_some]

/-- **A text of the grammar is read as a call**, in full or in part. -/
theorem exists_associationCall?_text (rest : List Char) :
    ∃ options after, associationCall? (c.text ++ rest) =
      some ({ c.head.call with options := options }, after) ∧ rest.length ≤ after.length := by
  rw [c.associationCall?_text, c.closing?_closingText]
  rcases c.argument with - | ⟨g, g', options⟩ | ⟨g, g', name, hname⟩
  · exact ⟨[], rest, rfl, Nat.le_refl _⟩
  · have hend : IsOptionsEnd (options ++ '}' :: (c.beforeClosing.text ++ ')' :: rest)) options
        rest := ⟨c.beforeClosing, rfl⟩
    have hsome := isSome_throughBraceParenthesis?_iff.2 ⟨options, c.beforeClosing, rest, rfl⟩
    obtain ⟨⟨taken, after⟩, htaken⟩ := Option.isSome_iff_exists.1 hsome
    exact ⟨taken, after, by simp only [htaken, Option.map_some],
      length_le_of_isOptionsEnd htaken hend⟩
  · exact ⟨[], rest, rfl, Nat.le_refl _⟩

end CallForm

/-- What stands behind a target that is read. -/
theorem exists_argument_of_closing? {text options rest : List Char}
    (h : closing? text = some (options, rest)) :
    ∃ (argument : SecondArgument) (g : Gap), argument.options = options ∧
      text = argument.text ++ g.text ++ ')' :: rest := by
  rw [closing?] at h
  split at h
  · next behind hcomma =>
    obtain ⟨beforeComma, rfl⟩ := eq_gap_append_of_expectToken hcomma
    obtain ⟨beforeName, hbehind⟩ := exists_gap_append_skipBlanks behind
    rw [options?] at h
    split at h
    · exact absurd h.symm (Option.some_ne_none _)
    · next d more hskip =>
      rw [hskip] at hbehind
      subst hbehind
      split at h
      · next hbrace =>
        subst hbrace
        obtain ⟨g, rfl⟩ := isOptionsEnd_of_throughBraceParenthesis? h
        exact ⟨.braces beforeComma beforeName options, g, rfl, by simp [SecondArgument.text]⟩
      · split at h
        · next hstart =>
          obtain ⟨after, hafter, heq⟩ := Option.map_eq_some_iff.1 h
          obtain ⟨rfl, rfl⟩ := Prod.mk.inj heq
          obtain ⟨g, hg⟩ := eq_gap_append_of_expectToken hafter
          have hname : IsVariablePath (d :: more.takeWhile inVariablePath) := by
            refine ⟨⟨d, _, rfl, hstart⟩, fun e he ↦ ?_⟩
            rcases List.mem_cons.1 he with rfl | he
            · simp [inVariablePath, isWordChar_of_isIdentifierStart hstart]
            · exact List.all_eq_true.1 List.all_takeWhile e he
          have hmore : more = more.takeWhile inVariablePath ++ (g.text ++ ')' :: after) := by
            rw [← hg, List.takeWhile_append_dropWhile]
          refine ⟨.named beforeComma beforeName _ hname, g, rfl, ?_⟩
          simp only [SecondArgument.text, List.append_assoc, List.cons_append, ← hmore]
        · exact absurd h.symm (Option.some_ne_none _)
  · obtain ⟨after, hafter, heq⟩ := Option.map_eq_some_iff.1 h
    obtain ⟨rfl, rfl⟩ := Prod.mk.inj heq
    obtain ⟨g, rfl⟩ := eq_gap_append_of_expectToken hafter
    exact ⟨.absent, g, rfl, rfl⟩

/-- **What is read as a call is a text of the grammar.** -/
theorem exists_callForm_of_associationCall? {text rest : List Char} {call : AssociationCall}
    (h : associationCall? text = some (call, rest)) :
    ∃ c : CallForm, c.call = call ∧ text = c.text ++ rest := by
  rw [associationCall?_eq] at h
  obtain ⟨⟨front, behind⟩, hhead, h⟩ := Option.bind_eq_some_iff.1 h
  obtain ⟨⟨options, after⟩, hclosing, heq⟩ := Option.map_eq_some_iff.1 h
  obtain ⟨rfl, rfl⟩ := Prod.mk.inj heq
  obtain ⟨head, rfl, rfl⟩ := exists_callHead_of_callHead? hhead
  obtain ⟨argument, g, rfl, hbehind⟩ := exists_argument_of_closing? hclosing
  obtain rfl : behind = argument.text ++ g.text ++ ')' :: after := hbehind
  exact ⟨⟨head, argument, g⟩, rfl, by simp [CallForm.text, CallForm.closingText]⟩

/-- A text is an association call. -/
def IsCallText (text : List Char) : Prop := ∃ c : CallForm, c.text = text

theorem CallForm.isCallText (c : CallForm) : IsCallText c.text := ⟨c, rfl⟩

theorem IsCallText.ne_nil {text : List Char} (h : IsCallText text) : text ≠ [] := by
  obtain ⟨c, rfl⟩ := h
  simp [CallForm.text, CallForm.closingText]

/-- A text has one form as a call, up to its options. -/
theorem CallForm.head_call_eq {c c' : CallForm} (h : c.text = c'.text) :
    c.head.call = c'.head.call := by
  have hhead := c.callHead?_text []
  rw [h, c'.callHead?_text] at hhead
  exact (congrArg Prod.fst (Option.some.inj hhead)).symm

/-- **No call is read exactly if none stands at the front.** -/
theorem associationCall?_eq_none_iff {text : List Char} :
    associationCall? text = none ↔ ∀ token, IsCallText token → ¬ token <+: text := by
  constructor
  · rintro hnone _ ⟨c, rfl⟩ ⟨rest, rfl⟩
    obtain ⟨options, after, hread, -⟩ := c.exists_associationCall?_text rest
    exact absurd (hread.symm.trans hnone) (Option.some_ne_none _)
  · intro hnone
    rcases hread : associationCall? text with - | ⟨call, rest⟩
    · rfl
    · obtain ⟨c, -, rfl⟩ := exists_callForm_of_associationCall? hread
      exact absurd ⟨rest, rfl⟩ (hnone c.text c.isCallText)

/-- **The call that is read is the shortest** of those that stand at the front. -/
theorem length_le_of_associationCall? {c : CallForm} {rest token : List Char}
    (h : associationCall? (c.text ++ rest) = some (c.call, rest)) (htoken : IsCallText token)
    (hfront : token <+: c.text ++ rest) : c.text.length ≤ token.length := by
  obtain ⟨other, rfl⟩ := htoken
  obtain ⟨behind, hbehind⟩ := hfront
  obtain ⟨options, after, hread, hle⟩ := other.exists_associationCall?_text behind
  rw [hbehind, h] at hread
  obtain rfl : rest = after := congrArg Prod.snd (Option.some.inj hread)
  have hlength := congrArg List.length hbehind
  simp only [List.length_append] at hlength
  omega

end SchemaDiagram.Source
