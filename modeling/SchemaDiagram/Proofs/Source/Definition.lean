import Mathlib.Data.List.Infix
import SchemaDiagram.Proofs.Text.Nesting
import SchemaDiagram.Source.Definition

/-!
# Written model definitions

A model definition as it is written: the defining call, its type arguments, the quoted name and the
attribute block. What stands before it may hold other defining calls, as long as none of them can
be read; what stands behind the block is any text.

## What the search rests on

* A defining call that starts before the definition ends there too (`exists_eq_append_of_call`): a
  call has its first letter at no second place, so it cannot run on into the call that follows.
* A call whose first argument is no string literal describes no model (`readDefinition_unquoted`).
* The type arguments end where their angle brackets are closed (`closeAngle_append`), and the block
  ends where its brackets are closed (`block?_append`); so nothing behind the block is looked at.
-/

namespace SchemaDiagram.Source

open Text Text.Nesting

/-! ### The defining call -/

/-- The name of the defining method on its object; white space may stand around the dot. -/
def IsDefineCall (text : List Char) : Prop :=
  ∃ g₁ g₂ : Gap, text = connectionName ++ (g₁.text ++ '.' :: (g₂.text ++ defineName))

theorem afterDefine_append {call : List Char} (h : IsDefineCall call) {rest : List Char}
    (hrest : startsWord rest = false) : afterDefine (call ++ rest) = some rest := by
  obtain ⟨g₁, g₂, rfl⟩ := h
  have hdot : isBlank '.' = false := by decide
  have hdefine : skipBlanks (g₂.text ++ (defineName ++ rest)) = defineName ++ rest :=
    skipBlanks_gap_cons g₂ (c := 'd') (by decide) (['e', 'f', 'i', 'n', 'e'] ++ rest)
  simp only [afterDefine, List.append_assoc, List.cons_append, expectWord_append,
    Option.bind_eq_bind, Option.bind_some, expectToken_gap g₁ hdot, hdefine, hrest,
    Bool.false_eq_true, if_false]

theorem isDefineCall_of_afterDefine {text rest : List Char} (h : afterDefine text = some rest) :
    ∃ call, IsDefineCall call ∧ text = call ++ rest ∧ startsWord rest = false := by
  simp only [afterDefine, Option.bind_eq_bind, Option.bind_eq_some_iff] at h
  obtain ⟨r₁, h₁, r₂, h₂, r₃, h₃, h⟩ := h
  obtain ⟨g₁, hg₁⟩ := eq_gap_append_of_expectToken h₂
  obtain ⟨g₂, hg₂⟩ := exists_gap_append_skipBlanks r₂
  have hword : startsWord r₃ = false := by
    by_cases hr : startsWord r₃ = true
    · simp [hr] at h
    · simpa using hr
  obtain rfl : r₃ = rest := by simpa [hword] using h
  refine ⟨_, ⟨g₁, g₂, rfl⟩, ?_, hword⟩
  rw [expectWord_eq_some_iff.1 h₁, hg₁, hg₂, expectWord_eq_some_iff.1 h₃]
  simp

/-- The first letter of a defining call occurs in it only once. -/
theorem not_mem_tail_of_isDefineCall {call : List Char} (h : IsDefineCall call) :
    's' ∉ call.tail := by
  obtain ⟨g₁, g₂, rfl⟩ := h
  have hgap : ∀ g : Gap, 's' ∉ g.text := fun g ↦ g.not_mem (by decide)
  simp [connectionName, defineName, hgap]

/-- **A call does not run on into another call**: in front of a text that starts with the name of
the connection, a call that starts earlier also ends earlier. -/
theorem exists_eq_append_of_call {call front behind rest : List Char} (hcall : IsDefineCall call)
    (hfront : front ≠ []) (hrest : rest.head? = some 's') (h : front ++ rest = call ++ behind) :
    ∃ middle, front = call ++ middle ∧ behind = middle ++ rest := by
  rcases List.append_eq_append_iff.1 h with ⟨extra, hextra, hrun⟩ | ⟨middle, hmiddle, hbehind⟩
  · -- the call would run on by `extra`, which starts with the letter that its tail does not have
    rcases extra with - | ⟨c, extra⟩
    · exact ⟨[], by simpa using hextra.symm, by simpa using hrun.symm⟩
    · obtain rfl : c = 's' := by simpa [hrun] using hrest
      obtain ⟨d, more, rfl⟩ := List.exists_cons_of_ne_nil hfront
      refine absurd ?_ (not_mem_tail_of_isDefineCall hcall)
      simp [hextra]
  · exact ⟨middle, hmiddle, hbehind⟩

/-! ### Type arguments -/

/-- The angle brackets of a text pair up: no front part closes more than it opens, and the whole
text closes all that it opens. -/
structure AnglesPaired (text : List Char) : Prop where
  count_le : ∀ front, front <+: text → front.count '>' ≤ front.count '<'
  count_eq : text.count '>' = text.count '<'

theorem closeAngle_opening (inner : Nat) (rest : List Char) :
    closeAngle inner ('<' :: rest) = closeAngle (inner + 1) rest :=
  rfl

theorem closeAngle_closing (inner : Nat) (rest : List Char) :
    closeAngle (inner + 1) ('>' :: rest) = closeAngle inner rest :=
  rfl

theorem closeAngle_other (inner : Nat) {c : Char} (hopen : c ≠ '<') (hclose : c ≠ '>')
    (rest : List Char) : closeAngle inner (c :: rest) = closeAngle inner rest := by
  rw [closeAngle.eq_def]
  simp [hopen, hclose]

/-- **The bracket that closes the type arguments is found**, whatever is nested in them: `inner`
brackets are open in front of the text, and the text closes all of them but never the one outside
it. -/
theorem closeAngle_append {inner : Nat} {text : List Char}
    (hle : ∀ front, front <+: text → front.count '>' ≤ inner + front.count '<')
    (heq : text.count '>' = inner + text.count '<') (rest : List Char) :
    closeAngle inner (text ++ '>' :: rest) = some rest := by
  induction text generalizing inner with
  | nil =>
    obtain rfl : inner = 0 := by simpa using heq.symm
    rfl
  | cons c text ih =>
    have hle' : ∀ front, front <+: text →
        (c :: front).count '>' ≤ inner + (c :: front).count '<' := fun front hfront ↦
      hle (c :: front) (List.cons_prefix_cons.2 ⟨rfl, hfront⟩)
    rw [List.cons_append]
    by_cases hopen : c = '<'
    · subst hopen
      rw [closeAngle_opening]
      refine ih (fun front hfront ↦ ?_) ?_
      · have := hle' front hfront
        simp at this
        omega
      · simp at heq
        omega
    · by_cases hclose : c = '>'
      · subst hclose
        -- the first bracket closes one of the `inner` ones, so there is one
        have hpos := hle' [] List.nil_prefix
        obtain ⟨outer, rfl⟩ : ∃ outer, inner = outer + 1 := ⟨inner - 1, by simp at hpos; omega⟩
        rw [closeAngle_closing]
        refine ih (fun front hfront ↦ ?_) ?_
        · have := hle' front hfront
          simp at this
          omega
        · simp at heq
          omega
      · rw [closeAngle_other inner hopen hclose]
        refine ih (fun front hfront ↦ ?_) ?_
        · simpa [hopen, hclose] using hle' front hfront
        · simpa [hopen, hclose] using heq

theorem skipTypeArguments_cons {c : Char} (h : c ≠ '<') (rest : List Char) :
    skipTypeArguments (c :: rest) = some (c :: rest) := by
  unfold skipTypeArguments
  split
  · next heq => exact absurd (List.cons.inj heq).1 h
  · rfl

/-! ### The quoted name -/

theorem quotedName?_append {quote : Char} {name : List Char} (hquote : isQuote quote = true)
    (hne : name ≠ []) (hname : quote ∉ name) (rest : List Char) :
    quotedName? (quote :: (name ++ quote :: rest)) = some (name, rest) := by
  obtain ⟨htake, hdrop⟩ := span_ne hname rest
  simp only [quotedName?, hquote, htake, hdrop, if_true]
  simp [hne]

theorem quotedName?_eq_none {text : List Char} (h : ∀ c ∈ text.head?, isQuote c = false) :
    quotedName? text = none := by
  cases text with
  | nil => rfl
  | cons c rest => simp [quotedName?, h c rfl]

/-- A call whose first argument is no string literal cannot be read. -/
theorem readDefinition_unquoted (g : Gap) {tail : List Char}
    (h : ∀ c ∈ (skipBlanks tail).head?, isQuote c = false) :
    readDefinition (g.text ++ '(' :: tail) = none := by
  have hparen : isBlank '(' = false := by decide
  simp only [readDefinition, skipBlanks_gap_cons g hparen,
    skipTypeArguments_cons (show '(' ≠ '<' by decide), Option.bind_eq_bind, Option.bind_some,
    expectToken_cons hparen, quotedName?_eq_none h, Option.bind_none]

/-! ### What is written -/

/-- The defining calls of a text cannot be read: behind each of them comes the parenthesis, and the
first argument, if it starts within the text, starts with no quote. -/
def CallsUnreadable (text : List Char) : Prop :=
  ∀ front call behind, text = front ++ (call ++ behind) →
    (∀ c ∈ front.getLast?, isWordChar c = false) → IsDefineCall call → startsWord behind = false →
    ∃ (g : Gap) (tail : List Char), behind = g.text ++ '(' :: tail ∧
      ∀ c ∈ (skipBlanks tail).head?, isQuote c = false

/-- A model definition with all that stands before and behind it. -/
structure WrittenDefinition where
  /-- What stands before the definition. -/
  before : List Char
  /-- The defining method on its object. -/
  call : List Char
  /-- White space behind the call. -/
  afterCall : Gap
  /-- What stands between the angle brackets, if there are type arguments. -/
  typeArguments : Option (List Char)
  /-- White space before the opening parenthesis. -/
  beforeParenthesis : Gap
  /-- White space before the name. -/
  beforeName : Gap
  /-- The quote on both sides of the name. -/
  quote : Char
  /-- The name of the model. -/
  name : List Char
  /-- White space between the name and the comma. -/
  beforeComma : Gap
  /-- White space between the comma and the attribute block. -/
  beforeBlock : Gap
  /-- The attribute block with its braces. -/
  block : List Char
  /-- What stands behind the attribute block. -/
  behind : List Char
  /-- No word runs on into the call. -/
  isWordChar_before : ∀ c ∈ before.getLast?, isWordChar c = false
  callsUnreadable_before : CallsUnreadable before
  isDefineCall : IsDefineCall call
  anglesPaired : ∀ arguments ∈ typeArguments, AnglesPaired arguments
  isQuote_quote : isQuote quote = true
  name_ne_nil : name ≠ []
  quote_not_mem_name : quote ∉ name
  head?_block : block.head? = some '{'
  isBlock : IsBlock block

namespace WrittenDefinition

variable (d : WrittenDefinition)

/-- The type arguments in their brackets. -/
def typeArgumentsText : List Char :=
  (d.typeArguments.map fun arguments ↦ '<' :: (arguments ++ ['>'])).getD []

/-- The arguments of the call from the name on, and all that follows. -/
def nameAndBlockText : List Char :=
  d.beforeName.text ++ (d.quote :: (d.name ++ d.quote ::
    (d.beforeComma.text ++ ',' :: (d.beforeBlock.text ++ (d.block ++ d.behind)))))

/-- All that follows the defining method. -/
def argumentsText : List Char :=
  d.afterCall.text ++ (d.typeArgumentsText ++
    (d.beforeParenthesis.text ++ '(' :: d.nameAndBlockText))

/-- The whole text. -/
def text : List Char := d.before ++ (d.call ++ d.argumentsText)

/-- The model that is defined. -/
def model : Model where
  name := String.ofList d.name
  fields := readAttributes d.block

/-! ### Reading it back -/

/-- The type arguments are skipped, and so is the white space around them. -/
theorem skipTypeArguments_argumentsText :
    ∃ g : Gap, skipTypeArguments (skipBlanks d.argumentsText) =
      some (g.text ++ '(' :: d.nameAndBlockText) := by
  have hparen : isBlank '(' = false := by decide
  rcases harguments : d.typeArguments with - | arguments
  · refine ⟨.none, ?_⟩
    have htext : skipBlanks d.argumentsText = '(' :: d.nameAndBlockText := by
      rw [argumentsText, typeArgumentsText, harguments, skipBlanks_gap]
      exact skipBlanks_gap_cons d.beforeParenthesis hparen _
    rw [htext]
    exact skipTypeArguments_cons (by decide) _
  · refine ⟨d.beforeParenthesis, ?_⟩
    obtain ⟨hle, heq⟩ := d.anglesPaired arguments harguments
    have htext : skipBlanks d.argumentsText =
        '<' :: (arguments ++ '>' :: (d.beforeParenthesis.text ++ '(' :: d.nameAndBlockText)) := by
      rw [argumentsText, typeArgumentsText, harguments, skipBlanks_gap]
      simp [skipBlanks_cons (show isBlank '<' = false by decide)]
    rw [htext]
    exact closeAngle_append (by simpa using hle) (by simpa using heq) _

theorem readDefinition_argumentsText : readDefinition d.argumentsText = some d.model := by
  obtain ⟨g, harguments⟩ := d.skipTypeArguments_argumentsText
  have hname : skipBlanks d.nameAndBlockText = d.quote :: (d.name ++ d.quote ::
      (d.beforeComma.text ++ ',' :: (d.beforeBlock.text ++ (d.block ++ d.behind)))) :=
    skipBlanks_gap_cons d.beforeName (isBlank_of_isQuote d.isQuote_quote) _
  obtain ⟨more, hblock⟩ : ∃ more, d.block = '{' :: more := List.head?_eq_some_iff.1 d.head?_block
  have hskip : skipBlanks (d.beforeBlock.text ++ (d.block ++ d.behind)) = d.block ++ d.behind := by
    rw [hblock]
    exact skipBlanks_gap_cons d.beforeBlock (by decide) (more ++ d.behind)
  have hhead : (d.block ++ d.behind).head? = some '{' := by rw [hblock]; rfl
  simp only [readDefinition, harguments, expectToken_gap g (show isBlank '(' = false by decide),
    hname, quotedName?_append d.isQuote_quote d.name_ne_nil d.quote_not_mem_name,
    expectToken_gap d.beforeComma (show isBlank ',' = false by decide), hskip, hhead,
    block?_append d.isBlock, Option.bind_eq_bind, Option.bind_some, if_true]
  rfl

theorem startsWord_argumentsText : startsWord d.argumentsText = false := by
  rcases harguments : d.typeArguments with - | arguments
  · have htext : d.argumentsText =
        d.afterCall.text ++ (d.beforeParenthesis.text ++ '(' :: d.nameAndBlockText) := by
      rw [argumentsText, typeArgumentsText, harguments]
      rfl
    rcases hgap : d.beforeParenthesis.text with - | ⟨c, more⟩
    · rw [htext, hgap]
      exact startsWord_gap_cons d.afterCall (by decide) _
    · have hc : isWordChar c = false :=
        d.beforeParenthesis.isWordChar_of_mem c (by rw [hgap]; exact List.mem_cons_self)
      rw [htext, hgap]
      exact startsWord_gap_cons d.afterCall hc _
  · have htext : d.argumentsText = d.afterCall.text ++ '<' :: (arguments ++ '>' ::
        (d.beforeParenthesis.text ++ '(' :: d.nameAndBlockText)) := by
      rw [argumentsText, typeArgumentsText, harguments]
      simp
    rw [htext]
    exact startsWord_gap_cons d.afterCall (by decide) _

theorem head?_call_append (rest : List Char) : (d.call ++ rest).head? = some 's' := by
  obtain ⟨g₁, g₂, hcall⟩ := d.isDefineCall
  rw [hcall]
  rfl

theorem skipBlanks_call_append (rest : List Char) :
    skipBlanks (d.call ++ rest) = d.call ++ rest := by
  obtain ⟨more, hmore⟩ := List.head?_eq_some_iff.1 (d.head?_call_append rest)
  rw [hmore, skipBlanks_cons (by decide)]

/-- Nothing that starts before the definition can be read as one. -/
theorem read_before {front behind : List Char} (hsplit : d.before = front ++ behind)
    (hne : behind ≠ []) (hfront : wordGoesOn false front = false) :
    (afterDefine (behind ++ (d.call ++ d.argumentsText))).bind readDefinition = none := by
  rcases hdefine : afterDefine (behind ++ (d.call ++ d.argumentsText)) with - | rest
  · rfl
  obtain ⟨call, hcall, htext, hrest⟩ := isDefineCall_of_afterDefine hdefine
  obtain ⟨middle, hbehind, hmiddle⟩ :=
    exists_eq_append_of_call hcall hne (d.head?_call_append d.argumentsText) htext
  have hword : startsWord middle = false := by
    cases middle with
    | nil => rfl
    | cons c middle => rwa [hmiddle] at hrest
  obtain ⟨g, tail, hparen, hunquoted⟩ := d.callsUnreadable_before front call middle
    (by rw [hsplit, hbehind]) ((wordGoesOn_eq_false_iff front).1 hfront) hcall hword
  rw [Option.bind_some, hmiddle, hparen, List.append_assoc, List.cons_append]
  refine readDefinition_unquoted g fun c hc ↦ ?_
  -- the argument starts within the text before the definition, or with the definition itself
  obtain ⟨g', htail⟩ := exists_gap_append_skipBlanks tail
  rw [htail, List.append_assoc, skipBlanks_gap] at hc
  rcases hskip : skipBlanks tail with - | ⟨e, more⟩
  · rw [hskip, List.nil_append, d.skipBlanks_call_append, d.head?_call_append] at hc
    obtain rfl : 's' = c := Option.some.inj hc
    decide
  · have he : isBlank e = false := isBlank_of_skipBlanks_eq_cons hskip
    rw [hskip, List.cons_append, skipBlanks_cons he] at hc
    obtain rfl : e = c := by simpa using hc
    exact hunquoted e (by rw [hskip]; rfl)

theorem findModel_text : findModel d.text = some d.model := by
  have hbefore : wordGoesOn false d.before = false :=
    (wordGoesOn_eq_false_iff d.before).2 d.isWordChar_before
  have hskip : findModel d.text = findModel (d.call ++ d.argumentsText) := by
    rw [findModel, findAtWord, text, findBefore_append (fun _ _ ↦ rfl)
      fun _ _ hsplit hne hfront ↦ d.read_before hsplit hne hfront, hbefore]
    rfl
  have hread : (afterDefine (d.call ++ d.argumentsText)).bind readDefinition = some d.model := by
    rw [afterDefine_append d.isDefineCall d.startsWord_argumentsText, Option.bind_some,
      d.readDefinition_argumentsText]
  obtain ⟨more, hmore⟩ := List.head?_eq_some_iff.1 (d.head?_call_append d.argumentsText)
  rw [hmore] at hread
  rw [hskip, hmore, findModel, findAtWord, findBefore]
  simp only [Bool.false_eq_true, if_false, hread]

end WrittenDefinition

/-- **A written definition is read back as its model**: its name and the fields of its attribute
block. Definitions before it that cannot be read are passed over, and what stands behind the block
does not matter. -/
theorem extractModel_text (d : WrittenDefinition) {source : String}
    (h : stripComments source = String.ofList d.text) :
    extractModel source =
      some { name := String.ofList d.name, fields := parseAttributes (String.ofList d.block) } := by
  have htext : withoutComments source.toList = d.text := by
    simpa [stripComments] using congrArg String.toList h
  rw [extractModel, htext, d.findModel_text, parseAttributes, String.toList_ofList]
  rfl

/-! ### A definition behind a call that cannot be read -/

instance (text : List Char) : Decidable (AnglesPaired text) :=
  decidable_of_iff
    ((∀ front ∈ text.inits, front.count '>' ≤ front.count '<') ∧ text.count '>' = text.count '<')
    ⟨fun h ↦ ⟨fun front hfront ↦ h.1 front ((List.mem_inits front text).2 hfront), h.2⟩,
      fun h ↦ ⟨fun front hfront ↦ h.count_le front ((List.mem_inits front text).1 hfront),
        h.count_eq⟩⟩

/-- Whether the text behind a defining call goes on with a parenthesis and no quote. -/
def startsUnquoted (behind : List Char) : Bool :=
  (expectToken '(' behind).any fun tail ↦ (skipBlanks tail).head?.all fun c ↦ !isQuote c

/-- The calls of a text can be checked one tail of the text after the other. -/
theorem callsUnreadable_of_tails {text : List Char}
    (h : ∀ tail ∈ text.tails, (afterDefine tail).all startsUnquoted = true) :
    CallsUnreadable text := by
  intro front call behind htext _ hcall hbehind
  have htail : call ++ behind ∈ text.tails := (List.mem_tails _ _).2 ⟨front, htext.symm⟩
  have hstarts := h _ htail
  rw [afterDefine_append hcall hbehind, Option.all_some, startsUnquoted,
    Option.any_eq_true] at hstarts
  obtain ⟨tail, hparen, hunquoted⟩ := hstarts
  obtain ⟨g, hg⟩ := eq_gap_append_of_expectToken hparen
  refine ⟨g, tail, hg, fun c hc ↦ ?_⟩
  rw [Option.mem_def.1 hc] at hunquoted
  simpa using hunquoted

/-- A definition with nested type arguments and a nested block, behind a call that cannot be read
and before one that is cut off. -/
def orderDefinition : WrittenDefinition where
  before := "sequelize.define(table);\n".toList
  call := "sequelize . define".toList
  afterCall := .none
  typeArguments := some "Row<Id>, Row<Total>".toList
  beforeParenthesis := .space
  beforeName := .none
  quote := '\''
  name := "Order".toList
  beforeComma := .none
  beforeBlock := .space
  block := "\x7b id: \x7b type: DataTypes.UUID, values: ['\x7d', (1)] \x7d \x7d".toList
  behind := ", \x7b\x7d); sequelize.define('Next', \x7b".toList
  isWordChar_before := fun c hc ↦ by
    obtain rfl : '\n' = c := Option.some.inj hc
    decide
  callsUnreadable_before := callsUnreadable_of_tails (by decide +kernel)
  isDefineCall := ⟨.space, .space, by decide⟩
  anglesPaired := by decide +kernel
  isQuote_quote := by decide
  name_ne_nil := by decide
  quote_not_mem_name := by decide
  head?_block := by decide
  isBlock := ⟨"\x7b id: \x7b type: DataTypes.UUID, values: ['\x7d', (1)] \x7d ".toList, '\x7d',
    by decide, by decide +kernel, by decide +kernel⟩

/-- The definition is read from a source with a comment before it. -/
theorem extractModel_orderDefinition :
    stripComments
        ("/* sequelize.define('Old', \x7b\x7d) */" ++ String.ofList orderDefinition.text) =
        String.ofList orderDefinition.text ∧
      extractModel
        ("/* sequelize.define('Old', \x7b\x7d) */" ++ String.ofList orderDefinition.text) =
        some { name := String.ofList orderDefinition.name,
               fields := parseAttributes (String.ofList orderDefinition.block) } := by
  have htext (comment : String) : (comment ++ String.ofList orderDefinition.text).toList =
      comment.toList ++ orderDefinition.text := by
    rw [String.toList_append, String.toList_ofList]
  have hstrip : withoutComments
      ("/* sequelize.define('Old', \x7b\x7d) */".toList ++ orderDefinition.text) =
        orderDefinition.text := by
    decide +kernel
  have h : stripComments
      ("/* sequelize.define('Old', \x7b\x7d) */" ++ String.ofList orderDefinition.text) =
        String.ofList orderDefinition.text := by
    rw [stripComments, htext, hstrip]
  exact ⟨h, extractModel_text orderDefinition h⟩

end SchemaDiagram.Source
