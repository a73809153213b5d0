import SchemaDiagram.Proofs.Toml.Quoted
import SchemaDiagram.Toml.Reader

/-!
# Reading values and lines back

What a value, a key or a line is read as does not depend on what follows, as long as that does not
go on with it. So each piece has a law in front of any rest: strings, truth values and lists of
values (`IsValueText`), and from them the lines of a document (`ReadsAs`), which is then read line
by line (`lines?_flatMap`).
-/

namespace SchemaDiagram.Toml

open Text

variable {c : Char} {text rest : List Char}

/-- Pieces of a text are no more than its characters, if none is empty. -/
theorem length_le_length_flatMap {α : Type} {f : α → List Char} (h : ∀ a, f a ≠ [])
    (items : List α) : items.length ≤ (items.flatMap f).length := by
  induction items with
  | nil => exact Nat.le_refl 0
  | cons a items ih =>
    have := List.length_pos_iff.2 (h a)
    rw [List.flatMap_cons, List.length_append, List.length_cons]
    omega

/-! ### White space -/

/-- Whether something starts with the character that is neither white space nor a comment. -/
def isSolid (c : Char) : Bool := !isSpace c && c != '\n' && c != '\r' && c != '#'

theorem skipSpaces_cons (h : isSpace c = false) (rest : List Char) :
    skipSpaces (c :: rest) = c :: rest :=
  List.dropWhile_cons_of_neg (by simp [h])

/-- Blank lines are passed over one by one. -/
theorem skipLines_eq (text : List Char) :
    skipLines text = match lineBreak? (skipComment (skipSpaces text)) with
      | some rest => skipLines rest
      | none => skipSpaces text := by
  rw [skipLines]
  split <;> simp_all

theorem skipLines_space (rest : List Char) : skipLines (' ' :: rest) = skipLines rest := by
  rw [skipLines_eq, skipLines_eq rest]
  rfl

theorem skipLines_feed (rest : List Char) : skipLines ('\n' :: rest) = skipLines rest := by
  rw [skipLines_eq]
  rfl

theorem isSpace_of_isSolid (h : isSolid c) : isSpace c = false := by
  simp only [isSolid, Bool.and_eq_true, Bool.not_eq_true'] at h
  exact h.1.1.1

theorem lineBreak?_of_isSolid (h : isSolid c) (rest : List Char) :
    lineBreak? (c :: rest) = none := by
  simp only [isSolid, Bool.and_eq_true, bne_iff_ne] at h
  rw [lineBreak?, if_neg h.1.1.2, if_neg h.1.2]

theorem skipLines_of_isSolid (h : isSolid c) (rest : List Char) :
    skipLines (c :: rest) = c :: rest := by
  have hcomment : c ≠ '#' := by rintro rfl; exact absurd h (by decide)
  rw [skipLines_eq, skipSpaces_cons (isSpace_of_isSolid h), skipComment, if_neg hcomment,
    lineBreak?_of_isSolid h]

/-- A line ends right where the line feed is. -/
theorem endOfLine?_feed (rest : List Char) : endOfLine? ('\n' :: rest) = some rest := rfl

/-! ### Values -/

/-- The text is read as the value by a reader, whatever may follow a value. -/
structure IsValueText (read : List Char → Option (Value × List Char)) (text : List Char)
    (value : Value) : Prop where
  /-- The reader takes the text and no more. -/
  read_append : ∀ rest, EndsString rest → read (text ++ rest) = some (value, rest)
  /-- The text starts with something, which does not close a list. -/
  starts : ∃ c more, text = c :: more ∧ isSolid c ∧ c ≠ ']'

theorem exists_writeString_eq_cons (text : List Char) :
    ∃ c more, writeString text = c :: more ∧ (c = '"' ∨ c = '\'') := by
  unfold writeString
  cases styleOf text with
  | basic => exact ⟨_, _, rfl, .inl rfl⟩
  | literal => exact ⟨_, _, rfl, .inr rfl⟩
  | basicLines => exact ⟨_, _, rfl, .inl rfl⟩
  | literalLines => exact ⟨_, _, rfl, .inr rfl⟩

theorem isValueText_string (depth : Nat) (text : List Char) :
    IsValueText (valueWithin? depth) (writeString text) (.string (String.ofList text)) := by
  obtain ⟨c, more, hcons, hquote⟩ := exists_writeString_eq_cons text
  refine ⟨fun rest hrest ↦ ?_, c, more, hcons, ?_, ?_⟩
  · have hstring := string?_writeString hrest text
    rw [hcons, List.cons_append] at hstring ⊢
    rw [valueWithin?.eq_def]
    simp only [if_pos hquote, hstring, Option.map_some]
  · rcases hquote with rfl | rfl <;> decide
  · rcases hquote with rfl | rfl <;> decide

theorem isValueText_true (depth : Nat) :
    IsValueText (valueWithin? depth) ['t', 'r', 'u', 'e'] (.boolean true) where
  read_append rest _ := by
    rw [valueWithin?.eq_def]
    rfl
  starts := ⟨'t', _, rfl, by decide, by decide⟩

theorem isValueText_false (depth : Nat) :
    IsValueText (valueWithin? depth) ['f', 'a', 'l', 's', 'e'] (.boolean false) where
  read_append rest _ := by
    rw [valueWithin?.eq_def]
    rfl
  starts := ⟨'f', _, rfl, by decide, by decide⟩

/-! ### Lists -/

section List

variable {item : List Char → Option (Value × List Char)}

theorem listItems?_feed (item : List Char → Option (Value × List Char)) (budget : Nat)
    (rest : List Char) : listItems? item budget ('\n' :: rest) = listItems? item budget rest := by
  cases budget with
  | zero => rfl
  | succ budget => rw [listItems?, listItems?, skipLines_feed]

/-- A list ends where its bracket stands. -/
theorem listItems?_close (item : List Char → Option (Value × List Char)) (budget : Nat)
    (rest : List Char) : listItems? item (budget + 1) (']' :: rest) = some ([], rest) := by
  rw [listItems?, skipLines_of_isSolid (by decide), expect_self]

/-- An item of a list is read, and what follows it says whether there is another one. -/
theorem listItems?_item {value : Value} (h : IsValueText item text value) (budget : Nat)
    (hrest : EndsString rest) : listItems? item (budget + 1) (text ++ rest) =
      match expect ',' (skipLines rest) with
      | some rest => (listItems? item budget rest).map fun (values, rest) ↦ (value :: values, rest)
      | none => (expect ']' (skipLines rest)).map fun rest ↦ ([value], rest) := by
  obtain ⟨c, more, rfl, hsolid, hne⟩ := h.starts
  have hread := h.read_append rest hrest
  rw [List.cons_append] at hread ⊢
  rw [listItems?, skipLines_of_isSolid hsolid, expect, if_neg hne]
  simp only [hread]
  rfl

/-- The one item of a list. -/
theorem listItems?_singleton {value : Value} (h : IsValueText item text value) (budget : Nat)
    (rest : List Char) :
    listItems? item (budget + 1) (text ++ ']' :: rest) = some ([value], rest) := by
  rw [listItems?_item h budget ⟨by simp, by simp⟩, skipLines_of_isSolid (by decide),
    expect, if_neg (by decide), expect_self]
  rfl

/-- An item on a line of its own. -/
def itemLine (text : List Char) : List Char := [' ', ' ', ' ', ' '] ++ text ++ [',', '\n']

theorem itemLine_ne_nil (text : List Char) : itemLine text ≠ [] := by
  simp [itemLine]

theorem listItems?_itemLine {value : Value} (h : IsValueText item text value) (budget : Nat)
    (rest : List Char) : listItems? item (budget + 1) (itemLine text ++ rest) =
      (listItems? item budget rest).map fun (values, rest) ↦ (value :: values, rest) := by
  have hindent (more : List Char) : listItems? item (budget + 1)
      (' ' :: ' ' :: ' ' :: ' ' :: more) = listItems? item (budget + 1) more := by
    simp only [listItems?, skipLines_space]
  simp only [itemLine, List.cons_append, List.nil_append, List.append_assoc, hindent]
  rw [listItems?_item h budget ⟨by simp, by simp⟩, skipLines_of_isSolid (by decide),
    expect_self]
  simp only [listItems?_feed]

/-- Items on lines of their own are read one by one. -/
theorem listItems?_itemLines {items : List (List Char × Value)}
    (h : ∀ pair ∈ items, IsValueText item pair.1 pair.2) {budget : Nat}
    (hbudget : items.length < budget) (rest : List Char) :
    listItems? item budget (items.flatMap (fun pair ↦ itemLine pair.1) ++ ']' :: rest) =
      some (items.map Prod.snd, rest) := by
  obtain ⟨budget, rfl⟩ : ∃ budget', budget = budget' + 1 := ⟨budget - 1, by omega⟩
  induction items generalizing budget with
  | nil => exact listItems?_close item budget rest
  | cons pair items ih =>
    obtain ⟨budget, rfl⟩ : ∃ budget', budget = budget' + 1 := ⟨budget - 1, by
      simp only [List.length_cons] at hbudget
      omega⟩
    rw [List.forall_mem_cons] at h
    rw [List.flatMap_cons, List.append_assoc, listItems?_itemLine h.1,
      ih h.2 budget (by simpa using hbudget)]
    rfl

end List

/-- What stands between the brackets of a list, of which each item is given with its value. -/
def listBody : List (List Char × Value) → List Char
  | [] => []
  | [pair] => pair.1
  | items => '\n' :: items.flatMap fun pair ↦ itemLine pair.1

/-- **A list of values is read back**, whatever the number of its items. -/
theorem isValueText_list {depth : Nat} {items : List (List Char × Value)}
    (h : ∀ pair ∈ items, IsValueText (valueWithin? depth) pair.1 pair.2) :
    IsValueText (valueWithin? (depth + 1)) ('[' :: (listBody items ++ [']']))
      (.array (items.map Prod.snd)) := by
  refine ⟨fun rest _ ↦ ?_, '[', _, rfl, by decide, by decide⟩
  have hitems : listItems? (valueWithin? depth) ((listBody items ++ ']' :: rest).length + 1)
      (listBody items ++ ']' :: rest) = some (items.map Prod.snd, rest) := by
    match items with
    | [] => exact listItems?_close _ _ rest
    | [pair] => exact listItems?_singleton (h pair List.mem_cons_self) _ rest
    | first :: second :: items =>
      have hbody : listBody (first :: second :: items) =
          '\n' :: (first :: second :: items).flatMap fun pair ↦ itemLine pair.1 := rfl
      have hlength := length_le_length_flatMap
        (fun pair : List Char × Value ↦ itemLine_ne_nil pair.1) (first :: second :: items)
      rw [hbody, List.cons_append, listItems?_feed]
      refine listItems?_itemLines h (Nat.lt_succ_of_le (Nat.le_trans hlength ?_)) rest
      rw [List.length_cons, List.length_append]
      omega
  rw [List.cons_append, List.append_assoc, List.singleton_append, valueWithin?.eq_def]
  simp only [hitems]
  rfl

/-! ### Keys and assignments -/

/-- A name that needs no quotes. -/
structure IsBareName (name : List Char) : Prop where
  /-- It is not empty. -/
  ne_nil : name ≠ []
  /-- Its characters may stand without quotes. -/
  bare : ∀ c ∈ name, isBareKeyChar c

theorem IsBareName.span {name : List Char} (h : IsBareName name) (hc : isBareKeyChar c = false)
    (rest : List Char) : (name ++ c :: rest).takeWhile isBareKeyChar = name ∧
      (name ++ c :: rest).dropWhile isBareKeyChar = c :: rest := by
  refine span_run h.bare ?_
  rintro d ⟨⟩
  exact hc

theorem isSolid_of_isBareKeyChar (h : isBareKeyChar c) : isSolid c ∧ c ≠ '[' := by
  have hne : ∀ d : Char, isBareKeyChar d = false → c ≠ d := by
    rintro d hd rfl
    simp [hd] at h
  simp only [isSolid, isSpace, Bool.and_eq_true, Bool.not_eq_true', Bool.or_eq_false_iff,
    beq_eq_false_iff_ne, bne_iff_ne]
  exact ⟨⟨⟨⟨⟨hne _ (by decide), hne _ (by decide)⟩, hne _ (by decide)⟩, hne _ (by decide)⟩,
    hne _ (by decide)⟩, hne _ (by decide)⟩

theorem IsBareName.exists_cons {name : List Char} (h : IsBareName name) :
    ∃ c more, name = c :: more ∧ isSolid c ∧ c ≠ '[' := by
  obtain ⟨c, more, rfl⟩ := List.exists_cons_of_ne_nil h.ne_nil
  obtain ⟨hsolid, hne⟩ := isSolid_of_isBareKeyChar (h.bare c List.mem_cons_self)
  exact ⟨c, more, rfl, hsolid, hne⟩

/-- A name is a key of its own, if no dot follows. -/
theorem key?_bareName {name : List Char} (h : IsBareName name) (hc : isBareKeyChar c = false)
    (hdot : (skipSpaces (c :: rest)).head? ≠ some '.') :
    key? (name ++ c :: rest) = some ([String.ofList name], skipSpaces (c :: rest)) := by
  have hspaces : skipSpaces (name ++ c :: rest) = name ++ c :: rest := by
    obtain ⟨d, more, rfl, hsolid, -⟩ := h.exists_cons
    exact skipSpaces_cons (isSpace_of_isSolid hsolid) _
  have hname : simpleKey? (name ++ c :: rest) = some (String.ofList name, c :: rest) := by
    obtain ⟨htake, hdrop⟩ := h.span hc rest
    simp only [simpleKey?, htake, hdrop, List.isEmpty_eq_false_iff.2 h.ne_nil]
    rfl
  have hexpect : expect '.' (skipSpaces (c :: rest)) = none := by
    refine Option.eq_none_iff_forall_ne_some.2 fun after hafter ↦ hdot ?_
    rw [expect_eq_some_iff.1 hafter, List.head?_cons]
  rw [key?, maxDepth, keyWithin?, hspaces, hname]
  simp only [Option.bind_eq_bind, Option.bind_some, hexpect]

/-- A name and its value, with an equals sign between them. -/
def assignmentText (name value : List Char) : List Char := name ++ [' ', '=', ' '] ++ value

theorem assignment?_assignmentText {name : List Char} (hname : IsBareName name)
    {item : List Char → Option (Value × List Char)} {value : Value}
    (hvalue : IsValueText item text value) (hrest : EndsString rest) :
    assignment? item (assignmentText name text ++ rest) =
      some (([String.ofList name], value), rest) := by
  obtain ⟨c, more, hcons, hsolid, -⟩ := hvalue.starts
  have hequals (after : List Char) : skipSpaces (' ' :: '=' :: after) = '=' :: after := rfl
  have hkey : key? (name ++ ' ' :: '=' :: ' ' :: (text ++ rest)) =
      some ([String.ofList name], '=' :: ' ' :: (text ++ rest)) :=
    key?_bareName hname (by decide) (by simp [hequals])
  have hspaces : skipSpaces (' ' :: (text ++ rest)) = text ++ rest := by
    rw [hcons, List.cons_append]
    exact skipSpaces_cons (isSpace_of_isSolid hsolid) _
  simp only [assignmentText, List.append_assoc, List.cons_append, List.nil_append, assignment?,
    hkey, Option.bind_eq_bind, Option.bind_some, expect_self, hspaces,
    hvalue.read_append rest hrest]

/-! ### Lines -/

/-- A passage of a document, up to the end of a line, is read as these lines. -/
def ReadsAs (text : List Char) (lines : List Line) : Prop :=
  ∀ budget rest, linesWithin? (budget + 1) (text ++ '\n' :: rest) =
    (linesWithin? budget rest).map (lines ++ ·)

/-- A statement up to the end of its line is one line. -/
theorem readsAs_of_statement? {line : Line} (hstarts : ∃ c more, text = c :: more ∧ isSolid c)
    (h : ∀ rest, statement? (text ++ '\n' :: rest) = some (line, '\n' :: rest)) :
    ReadsAs text [line] := by
  intro budget rest
  obtain ⟨c, more, rfl, hsolid⟩ := hstarts
  have hcomment : c ≠ '#' := by rintro rfl; exact absurd hsolid (by decide)
  have hstatement := h rest
  rw [List.cons_append] at hstatement ⊢
  rw [linesWithin?, skipSpaces_cons (isSpace_of_isSolid hsolid)]
  simp only [lineBreak?_of_isSolid hsolid, List.head?_cons, Option.some.injEq, hcomment, if_false,
    hstatement, endOfLine?_feed, Option.bind_eq_bind, Option.bind_some, List.singleton_append]

/-- An empty line says nothing. -/
theorem readsAs_nil : ReadsAs [] [] := by
  intro budget rest
  rw [List.nil_append, linesWithin?]
  simp [skipSpaces, isSpace, lineBreak?]

/-- The header of a table with a plain name. -/
theorem readsAs_header {name : List Char} (h : IsBareName name) :
    ReadsAs ('[' :: (name ++ [']'])) [.header [String.ofList name]] := by
  refine readsAs_of_statement? ⟨'[', _, rfl, by decide⟩ fun rest ↦ ?_
  obtain ⟨c, more, hcons, -, hne⟩ := h.exists_cons
  have hkey : key? (name ++ ']' :: '\n' :: rest) =
      some ([String.ofList name], ']' :: '\n' :: rest) :=
    key?_bareName h (by decide) (by simp [skipSpaces, isSpace])
  rw [hcons, List.cons_append] at hkey
  simp only [hcons, List.cons_append, List.append_assoc, List.nil_append]
  rw [statement?]
  · simp only [hkey, Option.bind_eq_bind, Option.bind_some, expect_self]
  · intro after hafter
    exact hne (List.cons.inj hafter).1

/-- The assignment of a value to a plain name. -/
theorem readsAs_assign {name : List Char} (hname : IsBareName name) {value : Value}
    (hvalue : IsValueText value? text value) :
    ReadsAs (assignmentText name text) [.assign [String.ofList name] value] := by
  obtain ⟨c, more, hcons, hsolid, hne⟩ := hname.exists_cons
  refine readsAs_of_statement? ⟨c, _, by rw [assignmentText, hcons]; rfl, hsolid⟩ fun rest ↦ ?_
  have hassignment := assignment?_assignmentText hname hvalue
    (show EndsString ('\n' :: rest) from ⟨by simp, by simp⟩)
  rw [assignmentText, hcons] at hassignment ⊢
  simp only [List.cons_append] at hassignment ⊢
  rw [statement?]
  · rw [hassignment, Option.map_some]
  · intro after hafter
    exact hne (List.cons.inj hafter).1
  · intro after hafter
    exact hne (List.cons.inj hafter).1

/-- A document is read passage by passage. -/
theorem lines?_flatMap {passages : List (List Char × List Line)}
    (h : ∀ passage ∈ passages, ReadsAs passage.1 passage.2) :
    lines? (passages.flatMap fun passage ↦ passage.1 ++ ['\n']) =
      some (passages.flatMap Prod.snd) := by
  have hwithin : ∀ budget, passages.length < budget →
      linesWithin? budget (passages.flatMap fun passage ↦ passage.1 ++ ['\n']) =
        some (passages.flatMap Prod.snd) := by
    induction passages with
    | nil =>
      intro budget hbudget
      obtain ⟨budget, rfl⟩ : ∃ budget', budget = budget' + 1 := ⟨budget - 1, by omega⟩
      rfl
    | cons passage passages ih =>
      intro budget hbudget
      rw [List.length_cons] at hbudget
      obtain ⟨budget, rfl⟩ : ∃ budget', budget = budget' + 1 := ⟨budget - 1, by omega⟩
      rw [List.forall_mem_cons] at h
      rw [List.flatMap_cons, List.flatMap_cons, List.append_assoc, List.singleton_append,
        h.1, ih h.2 budget (by omega)]
      rfl
  refine hwithin _ (Nat.lt_succ_of_le (length_le_length_flatMap
    (fun passage : List Char × List Line ↦ ?_) passages))
  simp

end SchemaDiagram.Toml
