import SchemaDiagram.Text.Token

/-!
# Class headers

`class Name extends Model` opens the class of a model; the base may be qualified by a dotted path.
Within such a class the model itself is called `this`.
-/

namespace SchemaDiagram.Source

open Text

/-- The keyword that opens a class. -/
def classWord : List Char := ['c', 'l', 'a', 's', 's']

/-- The keyword before the base of a class. -/
def extendsWord : List Char := ['e', 'x', 't', 'e', 'n', 'd', 's']

/-- The base class of all models. -/
def modelWord : List Char := ['M', 'o', 'd', 'e', 'l']

/-- The text after one identifier of a path and its dot. -/
def afterQualifier (text : List Char) : Option (List Char) := do
  let (_, rest) ← identifier? text
  let rest ← expectToken '.' rest
  some (skipBlanks rest)

/-- The text after the name of the base class, which must end there. -/
def afterModelWord (text : List Char) : Option (List Char) := do
  let rest ← expectWord modelWord text
  if startsWord rest then none else some rest

theorem length_lt_of_afterQualifier {text rest : List Char}
    (h : afterQualifier text = some rest) : rest.length < text.length := by
  simp only [afterQualifier, Option.bind_eq_bind, Option.bind_eq_some_iff, Option.some.injEq,
    Prod.exists] at h
  obtain ⟨name, r₁, h₁, r₂, h₂, rfl⟩ := h
  have := length_lt_of_identifier? h₁
  have := length_lt_of_expectToken h₂
  have := skipBlanks_length_le r₂
  omega

/-- The text after a base class with any path before it. Of several members of the path that have
the name of the base class, the last counts. -/
def afterBase (text : List Char) : Option (List Char) :=
  match _h : afterQualifier text with
  | some rest => (afterBase rest).or (afterModelWord text)
  | none => afterModelWord text
termination_by text.length
decreasing_by exact length_lt_of_afterQualifier _h

/-- The name of the class whose header stands at the front, and the text after the header. -/
def classHeader? (text : List Char) : Option (List Char × List Char) := do
  let rest ← expectWord classWord text
  let rest ← expectBlanks rest
  let (name, rest) ← identifier? rest
  let rest ← expectBlanks rest
  let rest ← expectWord extendsWord rest
  let rest ← expectBlanks rest
  let rest ← afterBase rest
  some (name, rest)

theorem length_le_of_afterModelWord {text rest : List Char}
    (h : afterModelWord text = some rest) : rest.length ≤ text.length := by
  simp only [afterModelWord, Option.bind_eq_bind, Option.bind_eq_some_iff] at h
  obtain ⟨r, hr, h⟩ := h
  have := length_le_of_expectWord hr
  grind

theorem length_le_of_afterBase {text rest : List Char} (h : afterBase text = some rest) :
    rest.length ≤ text.length := by
  fun_induction afterBase text with
  | case1 text r hr ih =>
    have := length_lt_of_afterQualifier hr
    rcases Option.or_eq_some_iff.1 h with h | ⟨-, h⟩
    · have := ih h
      omega
    · exact length_le_of_afterModelWord h
  | case2 => exact length_le_of_afterModelWord h

/-- A header takes at least one character, so the search behind it ends. -/
theorem length_lt_of_classHeader? {text name rest : List Char}
    (h : classHeader? text = some (name, rest)) : rest.length < text.length := by
  simp only [classHeader?, Option.bind_eq_bind, Option.bind_eq_some_iff, Option.some.injEq,
    Prod.mk.injEq, Prod.exists] at h
  obtain ⟨r₁, h₁, r₂, h₂, n, r₃, h₃, r₄, h₄, r₅, h₅, r₆, h₆, r₇, h₇, -, rfl⟩ := h
  have := length_le_of_expectWord h₁
  have := length_lt_of_expectBlanks h₂
  have := length_lt_of_identifier? h₃
  have := length_lt_of_expectBlanks h₄
  have := length_le_of_expectWord h₅
  have := length_lt_of_expectBlanks h₆
  have := length_le_of_afterBase h₇
  omega

/-- The model classes of a text with the places at which their headers start, in order. `position`
is the place of the text's first character, and `afterWord` says whether a word character stands
before it. -/
def classHeaders (position : Nat) (afterWord : Bool) : List Char → List (Nat × List Char)
  | [] => []
  | c :: rest =>
    match _h : if afterWord then none else classHeader? (c :: rest) with
    | some (name, after) =>
      (position, name) :: classHeaders (position + (rest.length + 1 - after.length)) true after
    | none => classHeaders (position + 1) (isWordChar c) rest
termination_by text => text.length
decreasing_by
  · split at _h
    · simp at _h
    · exact length_lt_of_classHeader? _h
  · simp

/-- The class that a place belongs to: the one whose header starts last before it. -/
def enclosingClass (headers : List (Nat × List Char)) (position : Nat) : Option (List Char) :=
  (headers.reverse.find? fun header ↦ header.1 < position).map Prod.snd

end SchemaDiagram.Source
