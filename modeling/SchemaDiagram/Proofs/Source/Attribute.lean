import Mathlib.Data.List.Forall2
import Mathlib.Data.List.Induction
import SchemaDiagram.Proofs.Text.Nesting
import SchemaDiagram.Source.Attribute

/-!
# Written attribute blocks

An attribute block as it is written: entries of a name, a colon and a value, with commas between
them and white space around every token. `Entry`, `ObjectBody` and `AttributeBlock` carry the
proofs that a text of that form is well formed, so that each of them has a text, and reading the
text is the inverse of writing it.

## The two levels

The same law is used twice. At the level of the block it says that each entry comes back as one
field, with its name; at the level of a value that is an object, it says that the properties come
back, of which three count. `entries_text` is that law, and it rests on the splitter taking a value
in one piece, whatever is nested in it.
-/

namespace SchemaDiagram.Source

open Text Text.Nesting

/-! ### What is written -/

/-- An entry of an object literal: a name, which may be quoted, a colon and a value. -/
structure Entry where
  /-- White space before the name. -/
  before : Gap
  /-- The quote on both sides of the name, if it is quoted. -/
  quote : Option Char
  /-- The name. -/
  name : List Char
  /-- White space between the name and the colon. -/
  beforeColon : Gap
  /-- White space between the colon and the value. -/
  afterColon : Gap
  /-- The value. -/
  value : List Char
  /-- White space behind the value. -/
  behind : Gap
  isQuote_of_mem : ∀ q ∈ quote, isQuote q = true
  name_ne_nil : name ≠ []
  isWordChar_of_mem : ∀ c ∈ name, isWordChar c = true
  /-- The brackets and string literals of the value are closed, and no comma stands outside
  them. -/
  isPart_value : IsPart value

/-- What stands between the braces of an object literal: entries, with a comma after each but the
last, and after the last too where white space follows it. -/
structure ObjectBody where
  /-- The entries. -/
  entries : List Entry
  /-- The white space behind the trailing comma, if there is such a comma; without entries, the
  white space between the braces. -/
  trailing : Option Gap

/-- An attribute block: an object literal in its braces. -/
structure AttributeBlock where
  /-- White space before the opening brace. -/
  before : Gap
  /-- What stands between the braces. -/
  body : ObjectBody
  /-- White space behind the closing brace. -/
  behind : Gap

namespace Entry

variable (e : Entry)

/-- The name as it is written. -/
def nameText : List Char := e.quote.toList ++ e.name ++ e.quote.toList

/-- What stands behind the colon. -/
def valueText : List Char := e.afterColon.text ++ e.value ++ e.behind.text

/-- The entry as it is written. -/
def text : List Char := e.before.text ++ e.nameText ++ e.beforeColon.text ++ ':' :: e.valueText

end Entry

/-- The parts of an object between its commas. -/
def ObjectBody.parts (body : ObjectBody) : List (List Char) :=
  body.entries.map Entry.text ++ (body.trailing.map Gap.text).toList

/-- The text between the braces of an object. -/
def ObjectBody.text (body : ObjectBody) : List Char := List.intercalate [','] body.parts

/-- The text of an object, with its braces. -/
def ObjectBody.bracedText (body : ObjectBody) : List Char := '{' :: body.text ++ ['}']

/-- The text of an attribute block. -/
def AttributeBlock.text (block : AttributeBlock) : List Char :=
  block.before.text ++ block.body.bracedText ++ block.behind.text

/-! ### Everything written is a part -/

theorem Entry.isPart_nameText (e : Entry) : IsPart e.nameText := by
  rcases hq : e.quote with - | q
  · simpa [nameText, hq] using isPart_word e.isWordChar_of_mem
  · have hquote : isQuote q = true := e.isQuote_of_mem q hq
    have hbody : ∀ c ∈ e.name, c ≠ q ∧ c ≠ '\\' := by
      intro c hc
      have hword := e.isWordChar_of_mem c hc
      constructor
      · rintro rfl
        exact Bool.false_ne_true ((isWordChar_of_isQuote hquote).symm.trans hword)
      · rintro rfl
        exact absurd hword (by decide)
    simpa [nameText, hq] using isPart_literal hquote hbody

theorem Entry.isPart_text (e : Entry) : IsPart e.text := by
  have hcolon : IsPart [':'] :=
    IsPart.singleton (by decide) (by decide) (by decide) (by decide)
  have hvalue : IsPart e.valueText :=
    ((isPart_gap e.afterColon).append e.isPart_value).append (isPart_gap e.behind)
  have hname := ((isPart_gap e.before).append e.isPart_nameText).append (isPart_gap e.beforeColon)
  exact hname.append (hcolon.append hvalue)

namespace ObjectBody

theorem isPart_of_mem_parts {body : ObjectBody} {part : List Char} (h : part ∈ body.parts) :
    IsPart part := by
  rcases List.mem_append.1 h with h | h
  · obtain ⟨e, -, rfl⟩ := List.mem_map.1 h
    exact e.isPart_text
  · obtain ⟨g, -, rfl⟩ := Option.map_eq_some_iff.1 (Option.mem_toList.1 h)
    exact isPart_gap g

theorem balanced_text (body : ObjectBody) : Balanced body.text := by
  have hparts : ∀ part ∈ body.parts, Balanced part := fun part hpart ↦
    (isPart_of_mem_parts hpart).balanced
  have hcomma : Balanced [','] := ⟨by simp [ClosesOnlyOpened, visits, isClosing], rfl, rfl⟩
  rw [text]
  generalize body.parts = parts at hparts
  induction parts with
  | nil => exact Balanced.nil
  | cons part parts ih =>
    have hpart := hparts part List.mem_cons_self
    have hrest := ih fun p hp ↦ hparts p (List.mem_cons_of_mem part hp)
    cases parts with
    | nil => simpa using hpart
    | cons next parts =>
      rw [List.intercalate_cons_cons]
      exact (hpart.append hcomma).append hrest

/-- **An object can be a value**, whatever its own values are; so objects nest to any depth. -/
theorem isPart_bracedText (body : ObjectBody) : IsPart body.bracedText :=
  IsPart.braces body.balanced_text

end ObjectBody

/-! ### Reading an entry back -/

theorem dropQuote_cons {c : Char} (h : isQuote c = false) (rest : List Char) :
    dropQuote (c :: rest) = c :: rest := by
  simp [dropQuote, h]

theorem dropQuote_gap_cons (g : Gap) {c : Char} (h : isQuote c = false) (rest : List Char) :
    dropQuote (g.text ++ c :: rest) = g.text ++ c :: rest := by
  rcases hg : g.text with - | ⟨d, more⟩
  · exact dropQuote_cons h rest
  · have hd : isBlank d = true := g.isBlank_of_mem d (by rw [hg]; exact List.mem_cons_self)
    exact dropQuote_cons (isQuote_of_isBlank hd) (more ++ c :: rest)

namespace Entry

variable (e : Entry)

/-- The name of an entry starts with a quote or a word character, not with white space. -/
theorem skipBlanks_nameText (rest : List Char) :
    skipBlanks (e.nameText ++ rest) = e.nameText ++ rest := by
  rcases hq : e.quote with - | q
  · obtain ⟨c, more, hname⟩ := List.exists_cons_of_ne_nil e.name_ne_nil
    have hc : isBlank c = false :=
      isBlank_of_isWordChar (e.isWordChar_of_mem c (by rw [hname]; exact List.mem_cons_self))
    simpa [nameText, hq, hname] using skipBlanks_cons hc (more ++ rest)
  · have hblank : isBlank q = false := isBlank_of_isQuote (e.isQuote_of_mem q hq)
    simpa [nameText, hq] using skipBlanks_cons hblank (e.name ++ q :: rest)

theorem trim_text :
    trim e.text = e.nameText ++ (e.beforeColon.text ++ ':' :: trimEnd e.valueText) := by
  rw [text, List.append_assoc, List.append_assoc, trim_gap_append, trim, e.skipBlanks_nameText,
    ← List.append_assoc, trimEnd_append_cons _ (by decide), List.append_assoc]

theorem trim_valueText : trim e.valueText = trim e.value := by
  rw [valueText, trim_append_gap, trim_gap_append]

/-- The name comes back without its quotes, and the text behind it starts at the colon. -/
theorem word?_nameText (rest : List Char) :
    ∃ behind, word? (dropQuote (e.nameText ++ (e.beforeColon.text ++ ':' :: rest))) =
        some (e.name, behind) ∧
      dropQuote behind = e.beforeColon.text ++ ':' :: rest := by
  have hcolon : isQuote ':' = false := by decide
  rcases hq : e.quote with - | q
  · refine ⟨e.beforeColon.text ++ ':' :: rest, ?_, dropQuote_gap_cons _ hcolon rest⟩
    have hdrop : dropQuote (e.name ++ (e.beforeColon.text ++ ':' :: rest)) =
        e.name ++ (e.beforeColon.text ++ ':' :: rest) := by
      obtain ⟨c, more, hname⟩ := List.exists_cons_of_ne_nil e.name_ne_nil
      have hc : isQuote c = false :=
        isQuote_of_isWordChar (e.isWordChar_of_mem c (by rw [hname]; exact List.mem_cons_self))
      rw [hname]
      exact dropQuote_cons hc (more ++ (e.beforeColon.text ++ ':' :: rest))
    have htext : e.nameText = e.name := by simp [nameText, hq]
    rw [htext, hdrop]
    exact word?_append e.name_ne_nil e.isWordChar_of_mem (startsWord_gap_cons _ (by decide) rest)
  · have hquote : isQuote q = true := e.isQuote_of_mem q hq
    refine ⟨q :: (e.beforeColon.text ++ ':' :: rest), ?_, by simp [dropQuote, hquote]⟩
    have htext : e.nameText ++ (e.beforeColon.text ++ ':' :: rest) =
        q :: (e.name ++ q :: (e.beforeColon.text ++ ':' :: rest)) := by
      simp [nameText, hq]
    have hdrop : dropQuote (q :: (e.name ++ q :: (e.beforeColon.text ++ ':' :: rest))) =
        e.name ++ q :: (e.beforeColon.text ++ ':' :: rest) := by
      simp [dropQuote, hquote]
    rw [htext, hdrop]
    exact word?_append e.name_ne_nil e.isWordChar_of_mem (isWordChar_of_isQuote hquote)

/-- **Reading an entry undoes writing it**: the name comes back without its quotes and the value
without the white space around it. -/
theorem entry?_trim_text : entry? (trim e.text) = some (e.name, trim e.value) := by
  obtain ⟨behind, hname, hbehind⟩ := e.word?_nameText (trimEnd e.valueText)
  have hcolon : expectToken ':' (e.beforeColon.text ++ ':' :: trimEnd e.valueText) =
      some (trimEnd e.valueText) :=
    expectToken_gap e.beforeColon (by decide) _
  rw [e.trim_text, entry?]
  simp only [hname, hbehind, hcolon, Option.bind_eq_bind, Option.bind_some, trim_trimEnd,
    e.trim_valueText]

end Entry

/-- What an object's text is read as: its entries, in order. -/
theorem entries_text (body : ObjectBody) :
    entries body.text = body.entries.map fun e ↦ (e.name, trim e.value) := by
  have hparts : ∀ part ∈ body.parts, IsPart part := fun _ hpart ↦
    ObjectBody.isPart_of_mem_parts hpart
  have hempty : ∀ part : List Char,
      (if !part.isEmpty then entry? part else none) = entry? part := by
    intro part
    cases part <;> rfl
  rw [entries, ObjectBody.text, splitTopLevel_intercalate hparts, List.filterMap_filter]
  simp only [hempty, ObjectBody.parts, List.map_append, List.filterMap_append, List.map_map]
  have htrailing : (((body.trailing.map Gap.text).toList.map trim).filterMap entry?) = [] := by
    rcases body.trailing with - | g
    · rfl
    · simp [trim_gap]
      rfl
  have hentries : ((body.entries.map (trim ∘ Entry.text)).filterMap entry?) =
      body.entries.map fun e ↦ (e.name, trim e.value) := by
    rw [List.filterMap_map, ← List.filterMap_eq_map]
    exact List.filterMap_congr fun e _ ↦ e.entry?_trim_text
  rw [htrailing, hentries, List.append_nil]

/-! ### Objects in braces -/

theorem betweenBraces?_eq_some_iff {text inner : List Char} :
    betweenBraces? text = some inner ↔ text = '{' :: inner ++ ['}'] := by
  constructor
  · intro h
    unfold betweenBraces? at h
    split at h
    · next rest =>
      split at h
      · next hlast =>
        obtain ⟨front, rfl⟩ := List.getLast?_eq_some_iff.1 hlast
        simp only [List.dropLast_concat, Option.some.injEq] at h
        rw [h, List.cons_append]
      · exact absurd h (by simp)
    · exact absurd h (by simp)
  · rintro rfl
    simp [betweenBraces?]

/-- A text in braces has no white space at its ends. -/
theorem trim_braces (inner : List Char) : trim ('{' :: inner ++ ['}']) = '{' :: inner ++ ['}'] := by
  have hend := trimEnd_append_cons ('{' :: inner) (c := '}') (by decide) []
  rw [trim, List.cons_append, skipBlanks_cons (by decide), ← List.cons_append, hend]
  rfl

/-! ### Fields -/

/-- The trimmed value of the last entry with a given name. -/
def lastValue? (name : List Char) (entries : List Entry) : Option (List Char) :=
  (entries.reverse.find? fun e ↦ e.name = name).map fun e ↦ trim e.value

theorem lastValue?_concat (name : List Char) (entries : List Entry) (e : Entry) :
    lastValue? name (entries ++ [e]) =
      if e.name = name then some (trim e.value) else lastValue? name entries := by
  by_cases h : e.name = name <;> simp [lastValue?, h]

/-- The field that an object describes: the last entries named `type`, `allowNull` and `primaryKey`
count, and nothing else does. -/
def ObjectBody.field (body : ObjectBody) (name : List Char) : Field where
  name := String.ofList name
  type := ((lastValue? "type".toList body.entries).map readType).getD .unknown
  nullable := lastValue? "allowNull".toList body.entries = some "true".toList
  primaryKey := lastValue? "primaryKey".toList body.entries = some "true".toList

/-- The three properties that count have three names. -/
theorem propertyNames_ne : "type".toList ≠ "allowNull".toList ∧
    "type".toList ≠ "primaryKey".toList ∧ "allowNull".toList ≠ "primaryKey".toList := by
  decide

/-- Each property replaces what an earlier one of its name said, so the last ones are left. -/
theorem foldl_applyProperty (name : List Char) (body : ObjectBody) :
    (body.entries.map fun e ↦ (e.name, trim e.value)).foldl applyProperty
        { name := String.ofList name, type := .unknown } = body.field name := by
  obtain ⟨entries, trailing⟩ := body
  obtain ⟨htn, htk, hnk⟩ := propertyNames_ne
  -- from the end of the entries, since the last one of a name counts
  induction entries using List.reverseRecOn with
  | nil => rfl
  | append_singleton entries e ih =>
    rw [List.map_append, List.foldl_append, ih]
    simp only [List.map_singleton, List.foldl_cons, List.foldl_nil, applyProperty,
      ObjectBody.field, lastValue?_concat]
    -- only that the three names differ matters from here on
    generalize "type".toList = typeName at htn htk
    generalize "allowNull".toList = nullName at htn hnk
    generalize "primaryKey".toList = keyName at htk hnk
    by_cases htype : e.name = typeName
    · have hnull : e.name ≠ nullName := fun h ↦ htn (htype.symm.trans h)
      have hkey : e.name ≠ keyName := fun h ↦ htk (htype.symm.trans h)
      simp only [if_pos htype, if_neg hnull, if_neg hkey, Option.map_some, Option.getD_some]
    · by_cases hnull : e.name = nullName
      · have hkey : e.name ≠ keyName := fun h ↦ hnk (hnull.symm.trans h)
        simp only [if_neg htype, if_pos hnull, if_neg hkey, Option.some.injEq]
      · by_cases hkey : e.name = keyName
        · simp only [if_neg htype, if_neg hnull, if_pos hkey, Option.some.injEq]
        · simp only [if_neg htype, if_neg hnull, if_neg hkey]

/-- A value that is an object is read through its own entries. -/
theorem readField_bracedText (name : List Char) (body : ObjectBody) :
    readField name (trim body.bracedText) = body.field name := by
  have hbraces : betweenBraces? body.bracedText = some body.text :=
    betweenBraces?_eq_some_iff.2 rfl
  rw [ObjectBody.bracedText, trim_braces, ← ObjectBody.bracedText, readField, hbraces]
  simp only [entries_text, foldl_applyProperty]

/-- A value that is no object is read as a type. -/
theorem readField_of_not_braces {value : List Char} (name : List Char)
    (h : ∀ inner, trim value ≠ '{' :: inner ++ ['}']) :
    readField name (trim value) =
      { name := String.ofList name, type := readType (trim value) } := by
  have hbraces : betweenBraces? (trim value) = none :=
    Option.eq_none_iff_forall_not_mem.2 fun inner hinner ↦
      h inner (betweenBraces?_eq_some_iff.1 hinner)
  rw [readField, hbraces]

theorem name_applyProperty (f : Field) (property : List Char × List Char) :
    (applyProperty f property).name = f.name := by
  simp only [applyProperty]
  split
  · rfl
  · split
    · rfl
    · split <;> rfl

/-- Properties do not change the name. -/
theorem name_readField (name value : List Char) :
    (readField name value).name = String.ofList name := by
  unfold readField
  split
  · next body _ =>
    generalize entries body = properties
    induction properties using List.reverseRecOn with
    | nil => rfl
    | append_singleton properties property ih =>
      rw [List.foldl_append, List.foldl_cons, List.foldl_nil, name_applyProperty, ih]
  · rfl

/-! ### Attribute blocks -/

theorem trim_text_block (block : AttributeBlock) : trim block.text = block.body.bracedText := by
  rw [AttributeBlock.text, trim_append_gap, trim_gap_append, ObjectBody.bracedText, trim_braces]

theorem readAttributes_text (block : AttributeBlock) :
    readAttributes block.text =
      block.body.entries.map fun e ↦ readField e.name (trim e.value) := by
  have hbraces : betweenBraces? block.body.bracedText = some block.body.text :=
    betweenBraces?_eq_some_iff.2 rfl
  rw [readAttributes, trim_text_block, hbraces, Option.getD_some, entries_text, List.map_map]
  rfl

/-- **One field for each attribute, in order.** Reading an attribute block undoes writing it: each
entry comes back as one field with its name. Where the value is an object, the field is what the
last entries of the object named `type`, `allowNull` and `primaryKey` say, whatever else is nested
in the object; any other value is read as a type. -/
theorem parseAttributes_text (block : AttributeBlock) :
    List.Forall₂
      (fun e f ↦ f.name = String.ofList e.name ∧
        (∀ body : ObjectBody, e.value = body.bracedText → f = body.field e.name) ∧
        ((∀ inner, trim e.value ≠ '{' :: inner ++ ['}']) →
          f = { name := String.ofList e.name, type := readType (trim e.value) }))
      block.body.entries (parseAttributes (String.ofList block.text)) := by
  rw [parseAttributes, String.toList_ofList, readAttributes_text, List.forall₂_map_right_iff,
    List.forall₂_same]
  intro e _
  refine ⟨name_readField e.name (trim e.value), ?_, readField_of_not_braces e.name⟩
  rintro body hvalue
  rw [hvalue, readField_bracedText]

/-- An entry with one space before its name and one before its value. -/
def Entry.spaced (quote : Option Char) (name : List Char) {value : List Char}
    (hname : name ≠ [] ∧ quote.all isQuote ∧ name.all isWordChar) (hvalue : IsPart value) :
    Entry where
  before := .space
  quote
  name
  beforeColon := .none
  afterColon := .space
  value
  behind := .none
  isQuote_of_mem := by simpa [Option.all_eq_true] using hname.2.1
  name_ne_nil := hname.1
  isWordChar_of_mem := List.all_eq_true.1 hname.2.2
  isPart_value := hvalue

theorem isPart_typeText {word : List Char} (h : word.all isWordChar) :
    IsPart (dataTypesName ++ '.' :: word) := by
  have hdot : IsPart ['.'] := IsPart.singleton (by decide) (by decide) (by decide) (by decide)
  have hholder : dataTypesName.all isWordChar := by decide
  exact (isPart_word (List.all_eq_true.1 hholder)).append
    (hdot.append (isPart_word (List.all_eq_true.1 h)))

/-- A literal that looks like a property and a brace. -/
theorem isPart_message : IsPart ('\'' :: "allowNull: false, \x7d".toList ++ ['\'']) :=
  isPart_literal (by decide) (List.forall_iff_forall_mem.1 (by decide))

/-- An object that is nested in an attribute, with properties of its own. -/
def lengthRule : ObjectBody where
  entries :=
    [.spaced none "type".toList (by decide)
        (isPart_typeText (show "TEXT".toList.all isWordChar by decide)),
      .spaced none "primaryKey".toList (by decide)
        (isPart_word (List.all_eq_true.1 (show "true".toList.all isWordChar by decide))),
      .spaced none "msg".toList (by decide) isPart_message]
  trailing := none

/-- The properties of an attribute, one of which is the nested object. -/
def emailProperties : ObjectBody where
  entries :=
    [.spaced none "type".toList (by decide)
        (isPart_typeText (show "STRING".toList.all isWordChar by decide)),
      .spaced none "allowNull".toList (by decide)
        (isPart_word (List.all_eq_true.1 (show "true".toList.all isWordChar by decide))),
      .spaced none "validate".toList (by decide) lengthRule.isPart_bracedText]
  trailing := none

/-- A type behind a quoted name, and an object that ends in a comma. -/
def accountBlock : AttributeBlock where
  before := .space
  body := {
    entries :=
      [.spaced (some '\'') "id".toList (by decide)
          (isPart_typeText (show "UUID".toList.all isWordChar by decide)),
        .spaced none "email".toList (by decide) emailProperties.isPart_bracedText]
    trailing := some .space }
  behind := .none

theorem parseAttributes_accountBlock :
    String.ofList accountBlock.text =
        " \x7b 'id': DataTypes.UUID, email: \x7b type: DataTypes.STRING, allowNull: true, " ++
          "validate: \x7b type: DataTypes.TEXT, primaryKey: true, " ++
          "msg: 'allowNull: false, \x7d'\x7d\x7d, \x7d" ∧
      parseAttributes (String.ofList accountBlock.text) =
        [{ name := "id", type := .scalar "UUID" },
          { name := "email", type := .scalar "STRING", nullable := true }] := by
  obtain ⟨id, fields, ⟨-, -, hid⟩, hfields, htext⟩ :=
    List.forall₂_cons_left_iff.1 (parseAttributes_text accountBlock)
  obtain ⟨email, fields, ⟨-, hemail, -⟩, hnil, rfl⟩ := List.forall₂_cons_left_iff.1 hfields
  obtain rfl := List.forall₂_nil_left_iff.1 hnil
  have hbare : ∀ inner, trim (dataTypesName ++ '.' :: "UUID".toList) ≠ '{' :: inner ++ ['}'] := by
    intro inner h
    have hhead : (trim (dataTypesName ++ '.' :: "UUID".toList)).head? = some 'D' := by decide
    rw [h, List.cons_append, List.head?_cons] at hhead
    exact absurd hhead (by decide)
  refine ⟨by decide +kernel, ?_⟩
  rw [htext, hid hbare, hemail emailProperties rfl]
  decide +kernel

end SchemaDiagram.Source
