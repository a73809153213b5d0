import SchemaDiagram.Proofs.Text.Token
import SchemaDiagram.Source.Modifier

/-!
# Written modifiers

The modifiers of an association as they are written between the braces of the options: keys with
quoted values, in any order, with commas between them. The column that refers to the other model
may also be written as an object with the property `name`.

## Why a key is found at its own place only

A modifier is read at the leftmost place where its key starts a word and a colon follows. Between
the braces there are three kinds of places that the search for a key passes over:

* characters of no word, at which no key starts (`findBefore_nonword`);
* another key, which is a different word (`findBefore_otherWord`);
* quoted values, which hold no colon and end with a quote, so that a key in them is not followed
  by a colon (`findBefore_sealed`).

So the search ends at the key's own modifier or at the end of the options
(`WrittenOptions.read?_text`).
-/

namespace SchemaDiagram.Source

open Text

/-! ### Searching for a key -/

section KeySearch

variable {α : Type} {key : List Char} {stop : Char → Bool} {read : List Char → Option α}

theorem eq_append_of_afterKey {text rest : List Char} (h : afterKey key text = some rest) :
    ∃ (g : Gap) (more : List Char), text = key ++ (g.text ++ ':' :: more) := by
  simp only [afterKey, Option.bind_eq_bind, Option.bind_eq_some_iff] at h
  obtain ⟨r₁, h₁, r₂, h₂, -⟩ := h
  obtain ⟨g, hg⟩ := eq_gap_append_of_expectToken h₂
  exact ⟨g, r₂, by rw [expectWord_eq_some_iff.1 h₁, hg]⟩

theorem afterKey_append (key : List Char) (g₁ g₂ : Gap) (rest : List Char) :
    afterKey key (key ++ (g₁.text ++ ':' :: (g₂.text ++ rest))) = some (skipBlanks rest) := by
  simp only [afterKey, expectWord_append, Option.bind_eq_bind, Option.bind_some,
    expectToken_gap g₁ (show isBlank ':' = false by decide), skipBlanks_gap]

/-- No word goes on behind characters of no word. -/
theorem wordGoesOn_nonword {afterWord : Bool} {front : List Char}
    (hfront : ∀ c ∈ front, isWordChar c = false) (h : afterWord = false ∨ front ≠ []) :
    wordGoesOn afterWord front = false := by
  rcases List.eq_nil_or_concat front with rfl | ⟨more, c, rfl⟩
  · simpa [wordGoesOn] using h
  · rw [List.concat_eq_append, wordGoesOn_concat]
    exact hfront c (by simp)

variable (hkey : ∀ c ∈ key, isWordChar c = true)

include hkey

/-- No key starts at a character of no word. -/
theorem findBefore_nonword (hne : key ≠ []) {afterWord : Bool} {front : List Char}
    (hstop : ∀ c ∈ front, stop c = false) (hfront : ∀ c ∈ front, isWordChar c = false)
    (h : afterWord = false ∨ front ≠ []) (rest : List Char) :
    findBefore stop (fun text ↦ (afterKey key text).bind read) afterWord (front ++ rest) =
      findBefore stop (fun text ↦ (afterKey key text).bind read) false rest := by
  rw [findBefore_append hstop, wordGoesOn_nonword hfront h]
  intro before behind hsplit hbehind _
  rcases hread : afterKey key (behind ++ rest) with - | value
  · rfl
  obtain ⟨g, more, htext⟩ := eq_append_of_afterKey hread
  obtain ⟨c, behind, rfl⟩ := List.exists_cons_of_ne_nil hbehind
  obtain ⟨d, word, rfl⟩ := List.exists_cons_of_ne_nil hne
  obtain rfl : c = d := (List.cons.inj htext).1
  have hc : isWordChar c = false := hfront c (by rw [hsplit]; simp)
  exact absurd (hkey c List.mem_cons_self) (by simp [hc])

/-- Another word is not the key, and inside a word no key starts. -/
theorem findBefore_otherWord {word : List Char} (hstop : ∀ c ∈ word, stop c = false)
    (hword : ∀ c ∈ word, isWordChar c = true) (hother : word ≠ key) {rest : List Char}
    (hrest : startsWord rest = false) :
    findBefore stop (fun text ↦ (afterKey key text).bind read) false (word ++ rest) =
      findBefore stop (fun text ↦ (afterKey key text).bind read) (wordGoesOn false word) rest := by
  refine findBefore_append hstop fun before behind hsplit hbehind hbefore ↦ ?_
  rcases List.eq_nil_or_concat before with rfl | ⟨front, c, rfl⟩
  · rcases hread : afterKey key (behind ++ rest) with - | value
    · rfl
    obtain rfl : word = behind := hsplit
    obtain ⟨g, more, htext⟩ := eq_append_of_afterKey hread
    -- the word and the key are both all the word characters at the front of the text
    exact absurd (eq_of_word_append hword hkey hrest (startsWord_gap_cons g (by decide) more)
      htext) hother
  · rw [List.concat_eq_append, wordGoesOn_concat] at hbefore
    have hc : isWordChar c = true := hword c (by rw [hsplit]; simp)
    exact absurd hc (by simp [hbefore])

/-- A text without colons that ends with a character of no word and no white space holds no key
with its colon, whatever comes behind it. -/
theorem findBefore_sealed {afterWord : Bool} {front : List Char} {last : Char}
    (hstop : ∀ c ∈ front ++ [last], stop c = false) (hcolon : ':' ∉ front ++ [last])
    (hword : isWordChar last = false) (hblank : isBlank last = false) (rest : List Char) :
    findBefore stop (fun text ↦ (afterKey key text).bind read) afterWord (front ++ last :: rest) =
      findBefore stop (fun text ↦ (afterKey key text).bind read) false rest := by
  have hgoes : wordGoesOn afterWord (front ++ [last]) = false := by rw [wordGoesOn_concat, hword]
  have hassoc : front ++ last :: rest = (front ++ [last]) ++ rest := by simp
  rw [hassoc, findBefore_append hstop, hgoes]
  intro before behind hsplit hbehind _
  rcases hread : afterKey key (behind ++ rest) with - | value
  · rfl
  obtain ⟨g, more, htext⟩ := eq_append_of_afterKey hread
  -- the tail of the front at which the key would start also ends with the last character
  obtain ⟨middle, rfl⟩ : ∃ middle, behind = middle ++ [last] := by
    rcases List.eq_nil_or_concat behind with rfl | ⟨middle, c, rfl⟩
    · exact absurd rfl hbehind
    · rw [List.concat_eq_append, ← List.append_assoc] at hsplit
      exact ⟨middle, by rw [(List.append_inj' hsplit rfl).2, List.concat_eq_append]⟩
  have hmem : ∀ c ∈ middle ++ [last], c ≠ ':' := by
    rintro c hc rfl
    exact hcolon (by rw [hsplit]; exact List.mem_append_right before hc)
  -- the colon that follows the key would have to come before that character
  have hbefore : ∀ c ∈ key ++ g.text, c ≠ last := by
    rintro c hc rfl
    rcases List.mem_append.1 hc with hc | hc
    · exact absurd (hkey c hc) (by simp [hword])
    · exact g.not_mem hblank hc
  rw [← List.append_assoc key] at htext
  rcases List.append_eq_append_iff.1 htext with ⟨extra, hextra, -⟩ | ⟨extra, hextra, hmore⟩
  · exact absurd rfl (hbefore last (by rw [hextra]; simp))
  · rcases extra with - | ⟨c, extra⟩
    · exact absurd rfl (hbefore last (by
        rw [List.append_nil] at hextra
        rw [← hextra]
        simp))
    · obtain rfl : ':' = c := (List.cons.inj hmore).1
      exact absurd rfl (hmem ':' (by rw [hextra]; simp))

omit hkey

/-- The key is found where it stands, with a value that can be read. -/
theorem findBefore_key {g₁ g₂ : Gap} {rest : List Char} {value : α}
    (hread : read (skipBlanks rest) = some value) (hne : key ≠ []) :
    findBefore stop (fun text ↦ (afterKey key text).bind read) false
      (key ++ (g₁.text ++ ':' :: (g₂.text ++ rest))) = some value := by
  have hafter := afterKey_append key g₁ g₂ rest
  obtain ⟨c, more, rfl⟩ := List.exists_cons_of_ne_nil hne
  rw [List.cons_append] at hafter ⊢
  simp only [findBefore, Bool.false_eq_true, if_false, hafter, Option.bind_some, hread]

/-- The leftmost value of a key. -/
def findKey (key : List Char) (read : List Char → Option α) (text : List Char) : Option α :=
  findAtWord (fun rest ↦ (afterKey key rest).bind read) text

include hkey

theorem findKey_nonword (hne : key ≠ []) {front : List Char}
    (hfront : ∀ c ∈ front, isWordChar c = false) (rest : List Char) :
    findKey key read (front ++ rest) = findKey key read rest :=
  findBefore_nonword hkey hne (fun _ _ ↦ rfl) hfront (.inl rfl) rest

theorem findKey_cons (hne : key ≠ []) {c : Char} (hc : isWordChar c = false) (rest : List Char) :
    findKey key read (c :: rest) = findKey key read rest :=
  findKey_nonword hkey hne (List.forall_mem_singleton.2 hc) rest

theorem findKey_gap (hne : key ≠ []) (g : Gap) (rest : List Char) :
    findKey key read (g.text ++ rest) = findKey key read rest :=
  findKey_nonword hkey hne g.isWordChar_of_mem rest

/-- Another key and its colon are passed over. -/
theorem findKey_otherKey (hne : key ≠ []) {word : List Char}
    (hword : ∀ c ∈ word, isWordChar c = true) (hother : word ≠ key) (g : Gap) (rest : List Char) :
    findKey key read (word ++ (g.text ++ ':' :: rest)) = findKey key read rest := by
  have hcolon : ∀ c ∈ g.text ++ [':'], isWordChar c = false := by
    intro c hc
    rcases List.mem_append.1 hc with hc | hc
    · exact g.isWordChar_of_mem c hc
    · obtain rfl := List.mem_singleton.1 hc
      decide
  have hassoc : g.text ++ ':' :: rest = (g.text ++ [':']) ++ rest := by simp
  rw [findKey, findAtWord, findBefore_otherWord hkey (fun _ _ ↦ rfl) hword hother
    (startsWord_gap_cons g (by decide) rest), hassoc]
  exact findBefore_nonword hkey hne (fun _ _ ↦ rfl) hcolon (.inr (by simp)) rest

/-- A quoted value without colons is passed over. -/
theorem findKey_quoted {quote : Char} (hquote : isQuote quote = true) {value : List Char}
    (hcolon : ':' ∉ value) (rest : List Char) :
    findKey key read (quote :: (value ++ quote :: rest)) = findKey key read rest := by
  have hne : ':' ≠ quote := by
    rintro rfl
    exact absurd hquote (by decide)
  have hmem : ':' ∉ quote :: value ++ [quote] := by simp [hcolon, hne]
  exact findBefore_sealed hkey (fun _ _ ↦ rfl) hmem (isWordChar_of_isQuote hquote)
    (isBlank_of_isQuote hquote) rest

end KeySearch

/-! ### The modifiers -/

/-- The modifiers of an association. -/
inductive ModifierKey where
  /-- The column that refers to the other model. -/
  | foreignKey
  /-- The column of the source that is referred to. -/
  | sourceKey
  /-- The column of the target that is referred to. -/
  | targetKey
  /-- The name that the association is given. -/
  | aliasName
  /-- The model that joins the two. -/
  | through
  deriving DecidableEq, Repr

namespace ModifierKey

/-- Every key. -/
def all : List ModifierKey := [foreignKey, sourceKey, targetKey, aliasName, through]

/-- The key as it is written. -/
def keyword : ModifierKey → List Char
  | foreignKey => "foreignKey".toList
  | sourceKey => "sourceKey".toList
  | targetKey => "targetKey".toList
  | aliasName => "as".toList
  | through => "through".toList

/-- The value at the front of a text, in the forms that the key allows. -/
def readValue? : ModifierKey → List Char → Option (List Char)
  | foreignKey => columnName?
  | through => fun value ↦ (quotedValue? value).or ((dottedPath? value).map Prod.fst)
  | _ => quotedValue?

/-- The value of the modifier in the options of a call. -/
def read? (key : ModifierKey) (options : List Char) : Option (List Char) :=
  findKey key.keyword key.readValue? options

theorem mem_all (key : ModifierKey) : key ∈ all := by
  cases key <;> simp [all]

theorem keyword_ne_nil (key : ModifierKey) : key.keyword ≠ [] := by
  cases key <;> decide

theorem isWordChar_of_mem_keyword (key : ModifierKey) :
    ∀ c ∈ key.keyword, isWordChar c = true := by
  cases key <;> exact List.all_eq_true.1 (by decide)

theorem keyword_injective {key other : ModifierKey} (h : key.keyword = other.keyword) :
    key = other := by
  revert h
  cases key <;> cases other <;> decide

/-- No modifier is called like the property of a column object. -/
theorem keyword_ne_name (key : ModifierKey) : ['n', 'a', 'm', 'e'] ≠ key.keyword := by
  cases key <;> decide

end ModifierKey

/-! ### What is written -/

/-- The white space in a column that is written as an object `{ name: value }`. -/
structure ColumnObject where
  /-- White space behind the opening brace. -/
  afterBrace : Gap
  /-- White space between the property's name and the colon. -/
  beforeColon : Gap
  /-- White space between the colon and the value. -/
  afterColon : Gap
  /-- White space before the closing brace. -/
  beforeBrace : Gap

/-- A modifier as it is written: a key, a colon and a quoted value. -/
structure WrittenModifier where
  /-- White space before the key. -/
  before : Gap
  /-- The key. -/
  key : ModifierKey
  /-- White space between the key and the colon. -/
  beforeColon : Gap
  /-- White space between the colon and the value. -/
  afterColon : Gap
  /-- The quote on both sides of the value. -/
  quote : Char
  /-- The value. -/
  value : List Char
  /-- The object around the value, if the value stands in one. -/
  object : Option ColumnObject
  /-- White space behind the value. -/
  behind : Gap
  isQuote_quote : isQuote quote = true
  value_ne_nil : value ≠ []
  isQuote_of_mem_value : ∀ c ∈ value, isQuote c = false
  colon_not_mem_value : ':' ∉ value
  brace_not_mem_value : '}' ∉ value
  /-- Only the column that refers to the other model may stand in an object. -/
  key_of_object : object.isSome → key = .foreignKey

/-- The options of a call as they are written between their braces: modifiers, with a comma after
each but the last, and after the last too where white space follows it. -/
structure WrittenOptions where
  /-- The modifiers. -/
  modifiers : List WrittenModifier
  /-- The white space behind the trailing comma, if there is such a comma; without modifiers, the
  white space between the braces. -/
  trailing : Option Gap

/-- The object around a quoted value. -/
def ColumnObject.text (o : ColumnObject) (quoted : List Char) : List Char :=
  '{' :: o.afterBrace.text ++ ['n', 'a', 'm', 'e'] ++ o.beforeColon.text ++ ':' ::
    o.afterColon.text ++ quoted ++ o.beforeBrace.text ++ ['}']

namespace WrittenModifier

variable (m : WrittenModifier)

/-- The value between its quotes. -/
def quotedText : List Char := m.quote :: m.value ++ [m.quote]

/-- The value in the form in which it is written. -/
def valueText : List Char :=
  match m.object with
  | none => m.quotedText
  | some o => o.text m.quotedText

/-- The modifier as it is written. -/
def text : List Char :=
  m.before.text ++ m.key.keyword ++ m.beforeColon.text ++ ':' :: m.afterColon.text ++
    m.valueText ++ m.behind.text

end WrittenModifier

namespace WrittenOptions

variable (o : WrittenOptions)

/-- The parts of the options between the commas. -/
def parts : List (List Char) :=
  o.modifiers.map WrittenModifier.text ++ (o.trailing.map Gap.text).toList

/-- The text between the braces. -/
def text : List Char := List.intercalate [','] o.parts

/-- The value that is written for a key. -/
def value? (key : ModifierKey) : Option (List Char) :=
  (o.modifiers.find? fun m ↦ m.key = key).map WrittenModifier.value

end WrittenOptions

/-! ### Reading a value back -/

theorem isWordChar_of_mem_name : ∀ c ∈ ['n', 'a', 'm', 'e'], isWordChar c = true :=
  List.all_eq_true.1 (by decide)

theorem quotedValue?_append {quote : Char} (hquote : isQuote quote = true) {value : List Char}
    (hne : value ≠ []) (hvalue : ∀ c ∈ value, isQuote c = false) (rest : List Char) :
    quotedValue? (quote :: (value ++ quote :: rest)) = some value := by
  have hinside : ∀ c ∈ value, (!isQuote c) = true := fun c hc ↦ by simp [hvalue c hc]
  have hclosing : ∀ c ∈ (quote :: rest).head?, (!isQuote c) = false := by simp [hquote]
  obtain ⟨htake, hdrop⟩ := span_run hinside hclosing
  simp [quotedValue?, hquote, htake, hdrop, hne]

namespace WrittenModifier

variable (m : WrittenModifier)

theorem quotedText_append (rest : List Char) :
    m.quotedText ++ rest = m.quote :: (m.value ++ m.quote :: rest) := by
  simp [quotedText]

theorem quotedValue?_quotedText (rest : List Char) :
    quotedValue? (m.quotedText ++ rest) = some m.value := by
  rw [m.quotedText_append]
  exact quotedValue?_append m.isQuote_quote m.value_ne_nil m.isQuote_of_mem_value rest

theorem skipBlanks_quotedText (rest : List Char) :
    skipBlanks (m.quotedText ++ rest) = m.quotedText ++ rest := by
  rw [m.quotedText_append]
  exact skipBlanks_cons (isBlank_of_isQuote m.isQuote_quote) _

/-- The name of a column is its quoted value, which does not start with a brace. -/
theorem columnName?_quotedText (rest : List Char) :
    columnName? (m.quotedText ++ rest) = some m.value := by
  have hquoted := m.quotedValue?_quotedText rest
  rw [m.quotedText_append] at hquoted ⊢
  rcases eq_of_isQuote m.isQuote_quote with h | h | h <;> rw [h] at hquoted ⊢ <;> exact hquoted

/-- The name of a column is read from within its object. -/
theorem nameProperty?_object (o : ColumnObject) (rest : List Char) :
    columnName? (o.text m.quotedText ++ rest) = some m.value := by
  have htext : o.text m.quotedText ++ rest =
      '{' :: (o.afterBrace.text ++ (['n', 'a', 'm', 'e'] ++ (o.beforeColon.text ++ ':' ::
        (o.afterColon.text ++ (m.quotedText ++ (o.beforeBrace.text ++ '}' :: rest)))))) := by
    simp [ColumnObject.text]
  have hvalue := m.quotedValue?_quotedText (o.beforeBrace.text ++ '}' :: rest)
  rw [← m.skipBlanks_quotedText] at hvalue
  have hgap : ∀ c ∈ o.afterBrace.text, (c == '}') = false := by
    intro c hc
    refine beq_eq_false_iff_ne.2 ?_
    rintro rfl
    exact o.afterBrace.not_mem (by decide) hc
  rw [htext, columnName?, nameProperty?, findBefore_nonword isWordChar_of_mem_name (by decide) hgap
    o.afterBrace.isWordChar_of_mem (.inl rfl)]
  exact findBefore_key hvalue (by decide)

theorem readValue?_valueText (rest : List Char) :
    m.key.readValue? (m.valueText ++ rest) = some m.value := by
  rcases hobject : m.object with - | o
  · have hquoted := m.quotedValue?_quotedText rest
    have hcolumn := m.columnName?_quotedText rest
    rw [valueText, hobject]
    cases m.key <;> simp only [ModifierKey.readValue?, hquoted, hcolumn, Option.some_or]
  · rw [valueText, hobject, m.key_of_object (by rw [hobject]; rfl)]
    exact m.nameProperty?_object o rest

theorem skipBlanks_valueText (rest : List Char) :
    skipBlanks (m.valueText ++ rest) = m.valueText ++ rest := by
  rcases hobject : m.object with - | o
  · rw [valueText, hobject]
    exact m.skipBlanks_quotedText rest
  · rw [valueText, hobject]
    exact skipBlanks_cons (by decide) _

/-! ### Searching the options -/

theorem text_append (rest : List Char) :
    m.text ++ rest = m.before.text ++ (m.key.keyword ++ (m.beforeColon.text ++ ':' ::
      (m.afterColon.text ++ (m.valueText ++ (m.behind.text ++ rest))))) := by
  simp [text]

variable {α : Type} {key : ModifierKey} {read : List Char → Option α}

/-- The search for a key passes over the value of another one, in whatever form it is written. -/
theorem findKey_valueText (rest : List Char) :
    findKey key.keyword read (m.valueText ++ rest) = findKey key.keyword read rest := by
  have hkey := key.isWordChar_of_mem_keyword
  have hne := key.keyword_ne_nil
  have hquoted (rest : List Char) :
      findKey key.keyword read (m.quotedText ++ rest) = findKey key.keyword read rest := by
    rw [m.quotedText_append]
    exact findKey_quoted hkey m.isQuote_quote m.colon_not_mem_value rest
  rcases hobject : m.object with - | o
  · rw [valueText, hobject]
    exact hquoted rest
  · have htext : o.text m.quotedText ++ rest =
        '{' :: (o.afterBrace.text ++ (['n', 'a', 'm', 'e'] ++ (o.beforeColon.text ++ ':' ::
          (o.afterColon.text ++ (m.quotedText ++ (o.beforeBrace.text ++ '}' :: rest)))))) := by
      simp [ColumnObject.text]
    rw [valueText, hobject]
    show findKey key.keyword read (o.text m.quotedText ++ rest) = _
    rw [htext, findKey_cons hkey hne (by decide), findKey_gap hkey hne,
      findKey_otherKey hkey hne isWordChar_of_mem_name key.keyword_ne_name, findKey_gap hkey hne,
      hquoted, findKey_gap hkey hne, findKey_cons hkey hne (by decide)]

/-- The search for a key passes over a modifier with another key. -/
theorem findKey_text_of_ne (h : m.key ≠ key) (rest : List Char) :
    findKey key.keyword read (m.text ++ rest) = findKey key.keyword read rest := by
  have hkey := key.isWordChar_of_mem_keyword
  have hne := key.keyword_ne_nil
  rw [m.text_append, findKey_gap hkey hne, findKey_otherKey hkey hne
    m.key.isWordChar_of_mem_keyword fun heq ↦ h (ModifierKey.keyword_injective heq),
    findKey_gap hkey hne, m.findKey_valueText, findKey_gap hkey hne]

/-- The search for a key ends at its modifier. -/
theorem findKey_text_self (rest : List Char) :
    findKey m.key.keyword m.key.readValue? (m.text ++ rest) = some m.value := by
  have hvalue := m.readValue?_valueText (m.behind.text ++ rest)
  rw [← m.skipBlanks_valueText] at hvalue
  rw [m.text_append, findKey_gap m.key.isWordChar_of_mem_keyword m.key.keyword_ne_nil]
  exact findBefore_key hvalue m.key.keyword_ne_nil

end WrittenModifier

namespace WrittenOptions

/-- Behind the first modifier the text ends, or a comma and the other options follow. -/
theorem text_cons (m : WrittenModifier) (modifiers : List WrittenModifier)
    (trailing : Option Gap) :
    (modifiers = [] ∧ trailing = none ∧ text ⟨m :: modifiers, trailing⟩ = m.text) ∨
      text ⟨m :: modifiers, trailing⟩ = m.text ++ ',' :: text ⟨modifiers, trailing⟩ := by
  have hcons : parts ⟨m :: modifiers, trailing⟩ = m.text :: parts ⟨modifiers, trailing⟩ := rfl
  rw [text, text, hcons]
  rcases hparts : parts ⟨modifiers, trailing⟩ with - | ⟨next, rest⟩
  · left
    obtain ⟨hmodifiers, htrailing⟩ := List.append_eq_nil_iff.1 hparts
    refine ⟨by simpa using hmodifiers, ?_, List.intercalate_singleton⟩
    rcases trailing with - | g
    · rfl
    · exact absurd htrailing (by simp)
  · right
    rw [List.intercalate_cons_cons, List.append_assoc, List.singleton_append]

/-- White space alone holds no modifier. -/
theorem read?_text_nil (key : ModifierKey) (trailing : Option Gap) :
    key.read? (text ⟨[], trailing⟩) = none := by
  rcases trailing with - | g
  · rfl
  · calc key.read? (text ⟨[], some g⟩) = key.read? (g.text ++ []) := by simp [text, parts]
      _ = none := findKey_gap key.isWordChar_of_mem_keyword key.keyword_ne_nil g []

/-- One modifier is the one that is sought, or it is passed over. -/
theorem read?_text_append {key : ModifierKey} {m : WrittenModifier} {o : WrittenOptions}
    {rest : List Char} (h : key.read? rest = o.value? key) :
    key.read? (m.text ++ rest) = value? ⟨m :: o.modifiers, o.trailing⟩ key := by
  by_cases hm : m.key = key
  · subst hm
    rw [ModifierKey.read?, m.findKey_text_self]
    simp [value?]
  · have hpass : key.read? (m.text ++ rest) = key.read? rest := m.findKey_text_of_ne hm rest
    rw [hpass, h]
    simp [value?, hm]

/-- **Each modifier is read back from the options**: the value that is written for its key, in
whatever order and form the modifiers are written, and nothing if the key is not among them. -/
theorem read?_text (key : ModifierKey) (o : WrittenOptions) : key.read? o.text = o.value? key := by
  obtain ⟨modifiers, trailing⟩ := o
  induction modifiers with
  | nil => exact read?_text_nil key trailing
  | cons m modifiers ih =>
    rcases text_cons m modifiers trailing with ⟨rfl, rfl, htext⟩ | htext
    · -- nothing stands behind the last modifier
      have hend : key.read? [] = value? ⟨[], none⟩ key := rfl
      rw [htext, ← List.append_nil m.text]
      exact read?_text_append hend
    · have hcomma : key.read? (',' :: text ⟨modifiers, trailing⟩) =
          value? ⟨modifiers, trailing⟩ key := by
        rw [← ih]
        exact findKey_cons key.isWordChar_of_mem_keyword key.keyword_ne_nil (by decide) _
      rw [htext]
      exact read?_text_append hcomma

end WrittenOptions

end SchemaDiagram.Source
