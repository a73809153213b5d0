import SchemaDiagram.Schema.Association
import SchemaDiagram.Text.Token

/-!
# Association calls

A call `receiver.kind(path)` or `receiver.kind(path, options)` declares an association. White space
may stand between the tokens. The options are an object literal, of which the text between the
braces is kept, or the name of a variable, of which nothing is known. Calls are found from left to
right, and the search goes on behind each call that was found.
-/

namespace SchemaDiagram.Source

open Text

/-- A call that declares an association, as it is written. -/
structure AssociationCall where
  /-- What the method is called on. -/
  receiver : List Char
  /-- The method. -/
  kind : AssociationKind
  /-- The last identifier of the first argument. -/
  target : List Char
  /-- The text between the braces of the options; empty without braces. -/
  options : List Char
  deriving DecidableEq, Repr

/-- The association kind at the front and the text after the parenthesis that must follow. -/
def kindAndParenthesis? (text : List Char) : Option (AssociationKind × List Char) :=
  AssociationKind.all.findSome? fun kind ↦ do
    let rest ← expectWord kind.keyword.toList text
    let rest ← expectToken '(' rest
    some (kind, rest)

/-- The text up to the first closing brace that a closing parenthesis follows, and the text after
that parenthesis. -/
def throughBraceParenthesis? : List Char → Option (List Char × List Char)
  | [] => none
  | c :: rest =>
    match if c = '}' then expectToken ')' rest else none with
    | some after => some ([], after)
    | none => (throughBraceParenthesis? rest).map fun (body, after) ↦ (c :: body, after)

/-- Whether the name of an options variable goes on over the character. -/
def inVariablePath (c : Char) : Bool := isWordChar c || c == '.'

/-- The text of the options, read from behind the comma, and the text after the call. -/
def options? (text : List Char) : Option (List Char × List Char) :=
  match skipBlanks text with
  | [] => none
  | c :: rest =>
    if c = '{' then throughBraceParenthesis? rest
    else if isIdentifierStart c then
      (expectToken ')' (rest.dropWhile inVariablePath)).map fun after ↦ ([], after)
    else none

/-- The text of the options, if there are any, and the text after the call; read from behind the
target. -/
def closing? (text : List Char) : Option (List Char × List Char) :=
  match expectToken ',' text with
  | some rest => options? rest
  | none => (expectToken ')' text).map fun after ↦ ([], after)

/-- The call at the front of a text and the text after it. -/
def associationCall? (text : List Char) : Option (AssociationCall × List Char) := do
  let (receiver, rest) ← identifier? text
  let rest ← expectToken '.' rest
  let (kind, rest) ← kindAndParenthesis? (skipBlanks rest)
  let (target, rest) ← dottedPath? (skipBlanks rest)
  let (options, rest) ← closing? rest
  some ({ receiver, kind, target, options }, rest)

theorem length_lt_of_kindAndParenthesis? {text rest : List Char} {kind : AssociationKind}
    (h : kindAndParenthesis? text = some (kind, rest)) : rest.length < text.length := by
  obtain ⟨k, -, hk⟩ := List.exists_of_findSome?_eq_some h
  simp only [Option.bind_eq_bind, Option.bind_eq_some_iff, Option.some.injEq, Prod.mk.injEq] at hk
  obtain ⟨mid, hmid, after, hafter, -, rfl⟩ := hk
  have := length_le_of_expectWord hmid
  have := length_lt_of_expectToken hafter
  omega

theorem length_le_of_throughBraceParenthesis? {text body rest : List Char}
    (h : throughBraceParenthesis? text = some (body, rest)) : rest.length ≤ text.length := by
  induction text generalizing body with
  | nil => simp [throughBraceParenthesis?] at h
  | cons c text ih =>
    simp only [throughBraceParenthesis?] at h
    split at h
    · next after hafter =>
      split at hafter
      · have := length_lt_of_expectToken hafter
        cases h
        simp only [List.length_cons]
        omega
      · simp at hafter
    · obtain ⟨⟨b, a⟩, hb, heq⟩ := Option.map_eq_some_iff.1 h
      cases heq
      exact Nat.le_succ_of_le (ih hb)

theorem length_le_of_options? {text body rest : List Char}
    (h : options? text = some (body, rest)) : rest.length ≤ text.length := by
  have hblanks := skipBlanks_length_le text
  simp only [options?] at h
  split at h
  · simp at h
  · next c after hskip =>
    rw [hskip, List.length_cons] at hblanks
    split at h
    · have := length_le_of_throughBraceParenthesis? h
      omega
    · split at h
      · obtain ⟨a, ha, heq⟩ := Option.map_eq_some_iff.1 h
        cases heq
        have := length_lt_of_expectToken ha
        have := dropWhile_length_le inVariablePath after
        omega
      · simp at h

theorem length_le_of_closing? {text body rest : List Char}
    (h : closing? text = some (body, rest)) : rest.length ≤ text.length := by
  simp only [closing?] at h
  split at h
  · next after hafter =>
    have := length_lt_of_expectToken hafter
    have := length_le_of_options? h
    omega
  · obtain ⟨a, ha, heq⟩ := Option.map_eq_some_iff.1 h
    cases heq
    have := length_lt_of_expectToken ha
    omega

/-- A call takes at least one character, so the search behind it ends. -/
theorem length_lt_of_associationCall? {text rest : List Char} {call : AssociationCall}
    (h : associationCall? text = some (call, rest)) : rest.length < text.length := by
  simp only [associationCall?, Option.bind_eq_bind, Option.bind_eq_some_iff, Option.some.injEq,
    Prod.mk.injEq, Prod.exists] at h
  obtain ⟨receiver, r₁, h₁, r₂, h₂, kind, r₃, h₃, target, r₄, h₄, options, r₅, h₅, -, rfl⟩ := h
  have := length_lt_of_identifier? h₁
  have := length_lt_of_expectToken h₂
  have := skipBlanks_length_le r₂
  have := length_lt_of_kindAndParenthesis? h₃
  have := skipBlanks_length_le r₃
  have := length_lt_of_dottedPath? h₄
  have := length_le_of_closing? h₅
  omega

/-- The calls of a text with the places at which they start; `position` is the place of the text's
first character. -/
def associationCalls (position : Nat) : List Char → List (Nat × AssociationCall)
  | [] => []
  | c :: rest =>
    match _h : associationCall? (c :: rest) with
    | some (call, after) =>
      (position, call) :: associationCalls (position + (rest.length + 1 - after.length)) after
    | none => associationCalls (position + 1) rest
termination_by text => text.length
decreasing_by
  · exact length_lt_of_associationCall? _h
  · simp

end SchemaDiagram.Source
