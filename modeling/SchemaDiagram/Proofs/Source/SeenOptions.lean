import SchemaDiagram.Proofs.Source.Association
import SchemaDiagram.Proofs.Source.CallGrammar
import SchemaDiagram.Proofs.Text.Nesting

/-!
# What is seen of the options of a call

The options of a call with braces may hold any text. A call is always read as a declaration of its
receiver, kind and target, and its modifiers are read from the part of the options before the first
closing brace that a closing parenthesis follows (`firstDeclares_of_isSeenPart`). So all of the
options are seen exactly if no such brace stands among them, whatever stands behind the call.

Brackets that pair up do not make up for it: an object literal that is the last argument of a call
within the options ends them (`extractAssociations_hooksStatement`).
-/

namespace SchemaDiagram.Source

open Text

/-! ### The part that is seen -/

/-- Options end nowhere in the text. -/
def HasNoOptionsEnd (text : List Char) : Prop := ∀ body after, ¬ IsOptionsEnd text body after

/-- The part of the text between the braces of a call in which modifiers are looked for: what stands
before the first place where options can end, or all of it. -/
structure IsSeenPart (options seen : List Char) : Prop where
  hasNoOptionsEnd : HasNoOptionsEnd seen
  eq_or_isOptionsEnd : seen = options ∨ ∃ after, IsOptionsEnd options seen after

theorem throughBraceParenthesis?_eq_none_iff {text : List Char} :
    throughBraceParenthesis? text = none ↔ HasNoOptionsEnd text := by
  rw [← Option.not_isSome_iff_eq_none, isSome_throughBraceParenthesis?_iff]
  constructor
  · rintro h body after ⟨g, heq⟩
    exact h ⟨body, g, after, heq⟩
  · rintro h ⟨body, g, after, heq⟩
    exact h body after ⟨g, heq⟩

/-- Up to the place where options end, they end nowhere. -/
theorem hasNoOptionsEnd_of_throughBraceParenthesis? {text body after : List Char}
    (h : throughBraceParenthesis? text = some (body, after)) : HasNoOptionsEnd body := by
  rintro front behind ⟨g, rfl⟩
  obtain ⟨g', rfl⟩ := isOptionsEnd_of_throughBraceParenthesis? h
  have hle := length_le_of_isOptionsEnd h
    (show IsOptionsEnd _ front (behind ++ '}' :: (g'.text ++ ')' :: after)) from ⟨g, by simp⟩)
  simp only [List.length_append, List.length_cons] at hle
  omega

theorem exists_isSeenPart (options : List Char) : ∃ seen, IsSeenPart options seen := by
  rcases hread : throughBraceParenthesis? options with - | ⟨body, after⟩
  · exact ⟨options, throughBraceParenthesis?_eq_none_iff.1 hread, .inl rfl⟩
  · exact ⟨body, hasNoOptionsEnd_of_throughBraceParenthesis? hread,
      .inr ⟨after, isOptionsEnd_of_throughBraceParenthesis? hread⟩⟩

/-- The search for the end of the options goes on up to the brace behind a text in which they end
nowhere. -/
theorem HasNoOptionsEnd.throughBraceParenthesis? {front : List Char} (h : HasNoOptionsEnd front)
    (g : Gap) (rest : List Char) :
    Source.throughBraceParenthesis? (front ++ '}' :: (g.text ++ ')' :: rest)) =
      some (front, rest) := by
  have hbrace := throughBraceParenthesis?_brace g rest
  rw [throughBraceParenthesis?_append (fun before behind hsplit ↦ ?_) hbrace, List.append_nil]
  rcases hexpect : expectToken ')' (behind ++ '}' :: (g.text ++ ')' :: rest)) with - | more
  · rfl
  · -- the parenthesis would follow the brace within the front already
    obtain ⟨g', hg'⟩ := eq_gap_append_of_expectToken hexpect
    obtain ⟨mid, rfl, -⟩ := g'.exists_of_append_eq (show '}' ≠ ')' by decide) (by decide) hg'.symm
    exact absurd ⟨g', hsplit⟩ (h before mid)

/-- A call with such options is read in full. -/
theorem HasNoOptionsEnd.associationCall?_text {c : CallForm}
    (h : HasNoOptionsEnd c.argument.options) (rest : List Char) :
    associationCall? (c.text ++ rest) = some (c.call, rest) := by
  rw [c.associationCall?_text, c.closing?_closingText, CallForm.call]
  rcases hargument : c.argument with - | ⟨g, g', options⟩ | ⟨g, g', name, hname⟩
  · rfl
  · have hend : HasNoOptionsEnd options := by rwa [hargument] at h
    simp only [hend.throughBraceParenthesis?, SecondArgument.options, Option.map_some]
  · rfl

namespace IsSeenPart

variable {options seen : List Char}

/-- **What is seen of the options does not depend on what stands behind them.** -/
theorem exists_throughBraceParenthesis?_eq (h : IsSeenPart options seen) (g : Gap)
    (rest : List Char) : ∃ after,
    throughBraceParenthesis? (options ++ '}' :: (g.text ++ ')' :: rest)) = some (seen, after) := by
  rcases h.eq_or_isOptionsEnd with rfl | ⟨after, g', rfl⟩
  · exact ⟨rest, h.hasNoOptionsEnd.throughBraceParenthesis? g rest⟩
  · have hread := h.hasNoOptionsEnd.throughBraceParenthesis? g'
      (after ++ '}' :: (g.text ++ ')' :: rest))
    exact ⟨_, by simpa using hread⟩

/-- All of the options are seen exactly if they end nowhere before their last brace. -/
theorem eq_iff (h : IsSeenPart options seen) : seen = options ↔ HasNoOptionsEnd options := by
  constructor
  · rintro rfl
    exact h.hasNoOptionsEnd
  · rintro hnone
    rcases h.eq_or_isOptionsEnd with heq | ⟨after, hend⟩
    · exact heq
    · exact absurd hend (hnone seen after)

end IsSeenPart

/-! ### The declaration of a call with options -/

/-- The first association that a text declares has the receiver, the kind and the target of the
call's front, and each of its modifiers is what the modifier's key finds in the options. -/
def FirstDeclares (text : String) (head : CallHead) (options : List Char) : Prop :=
  ∃ first more, extractAssociations text = first :: more ∧
    first.source = String.ofList head.receiver ∧ first.kind = head.kind ∧
    first.target = String.ofList head.target ∧
    ∀ key, modifier? first key = (key.read? options).map String.ofList

theorem FirstDeclares.read?_eq {text : String} {head : CallHead} {options options' : List Char}
    (h : FirstDeclares text head options) (h' : FirstDeclares text head options')
    (key : ModifierKey) : key.read? options = key.read? options' := by
  obtain ⟨first, more, htext, -, -, -, hmodifier⟩ := h
  obtain ⟨first', more', htext', -, -, -, hmodifier'⟩ := h'
  obtain ⟨rfl, -⟩ := List.cons.inj (htext.symm.trans htext')
  exact Option.map_injective (fun _ _ ↦ String.ofList_injective)
    ((hmodifier key).symm.trans (hmodifier' key))

theorem FirstDeclares.congr {text : String} {head : CallHead} {options options' : List Char}
    (h : FirstDeclares text head options) (hread : ∀ key : ModifierKey,
      key.read? options = key.read? options') : FirstDeclares text head options' := by
  obtain ⟨first, more, htext, hsource, hkind, htarget, hmodifier⟩ := h
  exact ⟨first, more, htext, hsource, hkind, htarget, fun key ↦ by rw [hmodifier, hread]⟩

/-- What a text declares starts with what the call at its front declares. -/
theorem exists_findAssociations_eq_cons {text rest : List Char} {call : AssociationCall}
    (h : associationCall? text = some (call, rest)) :
    ∃ more, findAssociations text = declaration (classHeaders 0 false text) 0 call :: more := by
  obtain ⟨behind, hcalls⟩ := associationCalls_eq_cons h 0
  exact ⟨_, by rw [findAssociations, hcalls, List.map_cons]⟩

section Braces

variable {c : CallForm} {beforeComma beforeBrace : Gap} {options seen : List Char}

/-- A call with options is declared first, with the modifiers in what is seen of the options. -/
theorem firstDeclares_of_isSeenPart (hargument : c.argument = .braces beforeComma beforeBrace options)
    (hself : c.head.receiver ≠ selfName) (hseen : IsSeenPart options seen) (rest : List Char) :
    FirstDeclares (String.ofList (c.text ++ rest)) c.head seen := by
  obtain ⟨after, hthrough⟩ := hseen.exists_throughBraceParenthesis?_eq c.beforeClosing rest
  have hread : associationCall? (c.text ++ rest) =
      some ({ c.head.call with options := seen }, after) := by
    rw [c.associationCall?_text, c.closing?_closingText, hargument]
    simp only [hthrough, Option.map_some]
  obtain ⟨more, hfirst⟩ := exists_findAssociations_eq_cons hread
  refine ⟨_, more, by rw [extractAssociations, String.toList_ofList, hfirst], ?_, rfl, rfl,
    fun key ↦ modifier?_declaration _ _ _ key⟩
  exact congrArg String.ofList (if_neg hself)

/-- **When all options of a call are read.** Whatever stands behind a call with options, it is the
first that is declared, and its modifiers are those in what is seen of the options. They are those
in all of the options exactly if each key finds the same in both, and all of the options are seen
exactly if no closing brace among them is followed by a closing parenthesis. -/
theorem firstDeclares_braces (hargument : c.argument = .braces beforeComma beforeBrace options)
    (hself : c.head.receiver ≠ selfName) :
    ∃ seen, IsSeenPart options seen ∧
      (∀ rest, FirstDeclares (String.ofList (c.text ++ rest)) c.head seen) ∧
      ((∀ rest, FirstDeclares (String.ofList (c.text ++ rest)) c.head options) ↔
        ∀ key : ModifierKey, key.read? seen = key.read? options) ∧
      (seen = options ↔ HasNoOptionsEnd options) := by
  obtain ⟨seen, hseen⟩ := exists_isSeenPart options
  have hfirst := firstDeclares_of_isSeenPart hargument hself hseen
  refine ⟨seen, hseen, hfirst, ⟨fun hall ↦ ?_, fun hread rest ↦ ?_⟩, hseen.eq_iff⟩
  · exact (hfirst []).read?_eq (hall [])
  · exact (hfirst rest).congr hread

end Braces

/-- The options of a call, with an object among them. -/
def projectOptions : List Char :=
  " foreignKey: \x7b name: 'projectId', allowNull: false \x7d, as: 'project' ".toList

/-- A call with these options. -/
def projectCall : CallForm where
  head :=
    { receiver := "Task".toList, beforeDot := .none, afterDot := .none, kind := .belongsTo,
      beforeOpening := .none, afterOpening := .none, qualifiers := [],
      target := "Project".toList,
      isIdentifier_receiver := isIdentifier_of_identifier? (show
        identifier? "Task".toList = some ("Task".toList, []) by decide)
      isIdentifier_target := isIdentifier_of_identifier? (show
        identifier? "Project".toList = some ("Project".toList, []) by decide) }
  argument := .braces .none .none projectOptions
  beforeClosing := .none

/-- The brace that closes the object is followed by a comma, so all of the options are read. -/
theorem firstDeclares_projectCall :
    projectCall.argument = .braces .none .none projectOptions ∧
      projectCall.head.receiver ≠ selfName ∧ HasNoOptionsEnd projectOptions ∧
      ∀ rest, FirstDeclares (String.ofList (projectCall.text ++ rest)) projectCall.head
        projectOptions := by
  have hself : projectCall.head.receiver ≠ selfName := by decide
  have hnone : HasNoOptionsEnd projectOptions :=
    throughBraceParenthesis?_eq_none_iff.1 (by decide +kernel)
  obtain ⟨seen, -, -, hall, hseen⟩ := firstDeclares_braces (c := projectCall) rfl hself
  exact ⟨rfl, hself, hnone, hall.2 fun key ↦ by rw [hseen.2 hnone]⟩

/-- Options with a call that an object literal is the last argument of. -/
def hooksOptions : List Char := " hooks: f(\x7b\x7d), as: 'posts' ".toList

/-- A statement with these options. -/
def hooksStatement : String :=
  "User.hasMany(Post, \x7b" ++ String.ofList hooksOptions ++ "\x7d);\n"

/-- **An object literal as the last argument of a call ends the options.** They are balanced and
set an alias, and yet the declaration has none. -/
theorem extractAssociations_hooksStatement :
    Balanced hooksOptions ∧ ModifierKey.aliasName.read? hooksOptions = some "posts".toList ∧
      extractAssociations hooksStatement =
        [{ source := "User", target := "Post", kind := .hasMany }] := by
  refine ⟨⟨?_, by decide +kernel, by decide +kernel⟩, by decide +kernel, by decide +kernel⟩
  show ∀ v ∈ Nesting.visits {} _, _
  decide +kernel

end SchemaDiagram.Source
