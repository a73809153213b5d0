import Mathlib.Data.List.TakeWhile
import Mathlib.Tactic.IntervalCases
import SchemaDiagram.Proofs.Json.Reader
import SchemaDiagram.Proofs.Text.Token

/-!
# Reading printed JSON back

Every value is read back from its printed text (`parse?_print_append`). A piece of a text has a law
in front of any rest that does not go on with it (`IsTextOf`): strings one character after the
other, counts by their digits, containers item by item, whatever the lines and indentations between
the items are. The text of a value is longer than that of each value inside it, so the length of the
whole text is depth enough.
-/

namespace SchemaDiagram.Json

open Text
open Toml (hexNumber? hexValue?)

variable {c : Char} {text rest : List Char}

/-! ### Strings -/

theorem hexValue?_hexDigit {n : Nat} (h : n < 16) : hexValue? (hexDigit n) = some n := by
  interval_cases n <;> rfl

/-- Two digits after two zeros are read as the character whose number they are. -/
theorem numberedChar?_hex (h : c.toNat < 256) (rest : List Char) :
    numberedChar? ('0' :: '0' :: hexDigit (c.toNat / 16) :: hexDigit (c.toNat % 16) :: rest) =
      some (c, rest) := by
  have hzero : hexValue? '0' = some 0 := rfl
  have hhigh := hexValue?_hexDigit (show c.toNat / 16 < 16 by omega)
  have hlow := hexValue?_hexDigit (show c.toNat % 16 < 16 by omega)
  have hvalue : 16 * (c.toNat / 16) + c.toNat % 16 = c.toNat := Nat.div_add_mod c.toNat 16
  have hvalid : c.toNat.isValidChar := .inl (by omega)
  simp [numberedChar?, hexNumber?, hzero, hhigh, hlow, hvalue, hvalid, Char.ofNat_toNat]

theorem stringBody?_backslash {letters : List Char}
    (h : escape? (letters ++ rest) = some (c, rest)) :
    stringBody? ('\\' :: (letters ++ rest)) =
      (stringBody? rest).map fun (body, after) ↦ (c :: body, after) := by
  rw [stringBody?, if_neg (by decide), if_pos rfl]
  split
  · next d after hescape =>
    obtain ⟨rfl, rfl⟩ : c = d ∧ rest = after := by simpa [h] using hescape
    rfl
  · next hescape => simp [h] at hescape

theorem escape?_short {letter : Char} (h : shortEscapes.lookup letter = some c)
    (rest : List Char) : escape? ([letter] ++ rest) = some (c, rest) := by
  simp only [List.singleton_append, escape?, h]

theorem escape?_hex (h : c.toNat < 256) (rest : List Char) :
    escape? (['u', '0', '0', hexDigit (c.toNat / 16), hexDigit (c.toNat % 16)] ++ rest) =
      some (c, rest) := by
  have hlookup : shortEscapes.lookup 'u' = none := by decide
  simp only [List.cons_append, List.nil_append, escape?, hlookup, if_pos]
  exact numberedChar?_hex h rest

/-- **Each character of a string is read back**, as itself or from its escape. -/
theorem stringBody?_escapeChar (c : Char) (rest : List Char) :
    stringBody? (escapeChar c ++ rest) =
      (stringBody? rest).map fun (body, after) ↦ (c :: body, after) := by
  unfold escapeChar
  split_ifs with hquote hbackslash hfeed hreturn htab hback hform hcontrol
  · exact stringBody?_backslash (escape?_short (by rw [hquote]; rfl) rest)
  · exact stringBody?_backslash (escape?_short (by rw [hbackslash]; rfl) rest)
  · exact stringBody?_backslash (escape?_short (by rw [hfeed]; rfl) rest)
  · exact stringBody?_backslash (escape?_short (by rw [hreturn]; rfl) rest)
  · exact stringBody?_backslash (escape?_short (by rw [htab]; rfl) rest)
  · exact stringBody?_backslash (escape?_short (by rw [hback]; rfl) rest)
  · exact stringBody?_backslash (escape?_short (by rw [hform]; rfl) rest)
  · exact stringBody?_backslash (escape?_hex (by omega) rest)
  · rw [List.singleton_append, stringBody?, if_neg hquote, if_neg hbackslash, if_neg hcontrol]

theorem stringBody?_append (text rest : List Char) :
    stringBody? (text.flatMap escapeChar ++ '"' :: rest) = some (text, rest) := by
  induction text with
  | nil => rw [List.flatMap_nil, List.nil_append, stringBody?, if_pos rfl]
  | cons c text ih =>
    rw [List.flatMap_cons, List.append_assoc, stringBody?_escapeChar, ih]
    rfl

theorem toList_quoted (text : String) :
    (quoted text).toList = '"' :: (text.toList.flatMap escapeChar ++ ['"']) := by
  simp [quoted]

/-! ### What is read in front of any rest -/

/-- What follows a value does not go on with a number. -/
def EndsValue (rest : List Char) : Prop :=
  ∀ c ∈ rest.head?, c.isDigit = false ∧ c ∉ ['.', 'e', 'E']

/-- The text is read as the item by a reader, whatever may follow a value. -/
structure IsTextOf {α : Type} (read : List Char → Option (α × List Char)) (text : List Char)
    (item : α) : Prop where
  /-- The reader takes the text and no more. -/
  read_append : ∀ rest, EndsValue rest → read (text ++ rest) = some (item, rest)
  /-- The text starts with a token, which closes no container. -/
  starts : ∃ c more, text = c :: more ∧ isSpace c = false ∧ c ∉ [']', '\x7d']

theorem endsValue_cons (h : c.isDigit = false) (hne : c ∉ ['.', 'e', 'E']) (rest : List Char) :
    EndsValue (c :: rest) := by
  rintro d ⟨⟩
  exact ⟨h, hne⟩

theorem skipSpaces_cons (h : isSpace c = false) (rest : List Char) :
    skipSpaces (c :: rest) = c :: rest :=
  List.dropWhile_cons_of_neg (by simp [h])

theorem skipSpaces_feed (rest : List Char) : skipSpaces ('\n' :: rest) = skipSpaces rest := rfl

theorem toList_indentation (level : Nat) :
    (indentation level).toList = List.replicate (2 * level) ' ' := by
  simp [indentation]

theorem skipSpaces_indentation (level : Nat) (rest : List Char) :
    skipSpaces ((indentation level).toList ++ rest) = skipSpaces rest := by
  rw [toList_indentation]
  exact List.dropWhile_append_of_pos fun c hc ↦ by rw [List.eq_of_mem_replicate hc]; rfl

/-! ### Counts -/

/-- Only zero is written with a zero in front. -/
theorem head?_toDigits_ne {n : Nat} (h : 0 < n) : (Nat.toDigits 10 n).head? ≠ some '0' := by
  induction n using Nat.strong_induction_on with
  | _ n ih =>
    rcases Nat.lt_or_ge n 10 with hlt | hge
    · rw [Nat.toDigits_of_lt_base hlt]
      interval_cases n <;> decide
    · have hfront := ih (n / 10) (by omega) (by omega)
      obtain ⟨d, more, hmore⟩ := List.exists_cons_of_ne_nil (Nat.toDigits_ne_nil (n := n / 10))
      rw [hmore] at hfront
      rwa [Nat.toDigits_of_base_le (by decide) hge, hmore]

theorem number?_append (n : Nat) (hrest : EndsValue rest) :
    number? (Nat.toDigits 10 n ++ rest) = some (n, rest) := by
  have hdigits : ∀ d ∈ Nat.toDigits 10 n, d.isDigit = true := fun d hd ↦
    Nat.isDigit_of_mem_toDigits (by decide) (by decide) hd
  obtain ⟨htake, hdrop⟩ := span_run hdigits fun c hc ↦ (hrest c hc).1
  have hzero : (Nat.toDigits 10 n).head? = some '0' → Nat.toDigits 10 n = ['0'] := by
    intro hhead
    rcases Nat.eq_zero_or_pos n with rfl | hpos
    · rfl
    · exact absurd hhead (head?_toDigits_ne hpos)
  have hend : rest.head? ∉ [some '.', some 'e', some 'E'] := by
    intro hmem
    obtain ⟨d, hd⟩ : ∃ d, rest.head? = some d := by
      rcases hhead : rest.head? with - | d
      · simp [hhead] at hmem
      · exact ⟨d, rfl⟩
    rw [hd] at hmem
    exact (hrest d hd).2 (by simpa using hmem)
  rw [number?]
  simp only [htake, hdrop]
  rw [if_neg, Nat.ofDigitChars_ten_toDigits]
  rintro (hnil | ⟨hhead, hne⟩ | hmem)
  · exact Nat.toDigits_ne_nil hnil
  · exact hne (hzero hhead)
  · exact hend hmem

/-! ### Containers -/

/-- The brackets of a container, as they are printed and as they are read. -/
structure IsBrackets (openingText closingText : String) (opening closing : Char) : Prop where
  /-- The opening bracket is printed as one character. -/
  toList_opening : openingText.toList = [opening]
  /-- So is the closing one. -/
  toList_closing : closingText.toList = [closing]
  /-- The opening bracket starts a value. -/
  starts : isSpace opening = false ∧ opening ∉ [']', '\x7d']
  /-- The closing bracket starts none. -/
  closing_mem : closing ∈ [']', '\x7d']

theorem isBrackets_list : IsBrackets "[" "]" '[' ']' :=
  ⟨rfl, rfl, by decide, by decide⟩

theorem isBrackets_object : IsBrackets "\x7b" "\x7d" '\x7b' '\x7d' :=
  ⟨rfl, rfl, by decide, by decide⟩

section Container

variable {α : Type} {read : List Char → Option (α × List Char)} {closing : Char} {item next : α}
  {items : List α} {write : α → String}

/-- White space in front of an item says nothing. -/
theorem items?_congr {budget : Nat} {text text' : List Char}
    (h : skipSpaces text = skipSpaces text') :
    items? read closing budget text = items? read closing budget text' := by
  cases budget with
  | zero => rfl
  | succ budget => rw [items?, items?, h]

/-- What follows an item tells whether there is another one. -/
theorem items?_item (h : IsTextOf read text item) (budget level : Nat) (hrest : EndsValue rest) :
    items? read closing (budget + 1) ((indentation level).toList ++ (text ++ rest)) =
      match expect ',' (skipSpaces rest) with
      | some rest =>
        (items? read closing budget rest).map fun (others, rest) ↦ (item :: others, rest)
      | none => (expect closing (skipSpaces rest)).map fun rest ↦ ([item], rest) := by
  obtain ⟨c, more, hcons, hspace, -⟩ := h.starts
  have hskip : skipSpaces ((indentation level).toList ++ (text ++ rest)) = text ++ rest := by
    rw [skipSpaces_indentation, hcons, List.cons_append, skipSpaces_cons hspace]
  rw [items?, hskip, h.read_append rest hrest]
  rfl

theorem isSpace_of_closing (h : closing ∈ [']', '\x7d']) : isSpace closing = false := by
  rcases List.mem_cons.1 h with rfl | h
  · rfl
  · obtain rfl := List.mem_singleton.1 h
    rfl

/-- The items of a container on lines of their own, each as it is written. -/
def itemLines (write : α → String) (level : Nat) (items : List α) : String :=
  String.intercalate ",\n" ((items.map write).map (indentation level ++ ·))

theorem toList_itemLines_singleton (write : α → String) (level : Nat) (item : α) :
    (itemLines write level [item]).toList = (indentation level).toList ++ (write item).toList := by
  simp [itemLines]

theorem toList_itemLines_cons_cons (write : α → String) (level : Nat) (item next : α)
    (items : List α) :
    (itemLines write level (item :: next :: items)).toList = (indentation level).toList ++
      ((write item).toList ++ ',' :: '\n' :: (itemLines write level (next :: items)).toList) := by
  simp [itemLines, String.append_assoc]

/-- The first line starts with the first item. -/
theorem exists_toList_itemLines (hne : items ≠ [])
    (h : ∀ item ∈ items, IsTextOf read (write item).toList item) (level : Nat) :
    ∃ c more, (itemLines write level items).toList = (indentation level).toList ++ c :: more ∧
      isSpace c = false ∧ c ∉ [']', '\x7d'] := by
  obtain ⟨item, items, rfl⟩ := List.exists_cons_of_ne_nil hne
  obtain ⟨c, more, hcons, hstarts⟩ := (h item List.mem_cons_self).starts
  cases items with
  | nil => exact ⟨c, more, by rw [toList_itemLines_singleton, hcons], hstarts⟩
  | cons next items =>
    exact ⟨c, _, by rw [toList_itemLines_cons_cons, hcons, List.cons_append], hstarts⟩

/-- Items on lines of their own are read one by one. -/
theorem items?_itemLines (hne : items ≠ [])
    (h : ∀ item ∈ items, IsTextOf read (write item).toList item)
    (hclosing : closing ∈ [']', '\x7d']) {budget : Nat} (hbudget : items.length ≤ budget)
    (level outer : Nat) (rest : List Char) :
    items? read closing budget ((itemLines write level items).toList ++
        '\n' :: ((indentation outer).toList ++ closing :: rest)) = some (items, rest) := by
  have hcomma : closing ≠ ',' := by
    rintro rfl
    exact absurd hclosing (by decide)
  induction items generalizing budget with
  | nil => exact absurd rfl hne
  | cons item items ih =>
    obtain ⟨budget, rfl⟩ : ∃ budget', budget = budget' + 1 := ⟨budget - 1, by
      simp only [List.length_cons] at hbudget
      omega⟩
    rw [List.forall_mem_cons] at h
    cases items with
    | nil =>
      rw [toList_itemLines_singleton, List.append_assoc, items?_item h.1 budget level
        (endsValue_cons (by decide) (by decide) _), skipSpaces_feed, skipSpaces_indentation,
        skipSpaces_cons (isSpace_of_closing hclosing), expect, if_neg hcomma, expect_self]
      rfl
    | cons next items =>
      have hothers := ih (List.cons_ne_nil _ _) h.2 (Nat.le_of_succ_le_succ hbudget)
      rw [toList_itemLines_cons_cons, List.append_assoc, List.append_assoc, List.cons_append,
        List.cons_append, items?_item h.1 budget level
        (endsValue_cons (by decide) (by decide) _), skipSpaces_cons (by decide), expect_self]
      simp only [items?_congr (skipSpaces_feed _), hothers]
      rfl

/-- No text of an item is empty, so there are no more items than characters. -/
theorem length_le_length_itemLines
    (h : ∀ item ∈ items, IsTextOf read (write item).toList item) (level : Nat) :
    items.length ≤ (itemLines write level items).toList.length := by
  induction items with
  | nil => exact Nat.zero_le _
  | cons item items ih =>
    rw [List.forall_mem_cons] at h
    obtain ⟨c, more, hcons, -⟩ := h.1.starts
    cases items with
    | nil =>
      rw [toList_itemLines_singleton, hcons]
      simp only [List.length_append, List.length_cons, List.length_nil]
      omega
    | cons next items =>
      have hothers := ih h.2
      rw [toList_itemLines_cons_cons, hcons]
      simp only [List.length_append, List.length_cons] at hothers ⊢
      omega

theorem length_le_length_itemLines_of_mem (write : α → String) (level : Nat) (h : item ∈ items) :
    (write item).toList.length ≤ (itemLines write level items).toList.length := by
  induction items with
  | nil => exact absurd h List.not_mem_nil
  | cons first items ih =>
    cases items with
    | nil =>
      obtain rfl := List.mem_singleton.1 h
      rw [toList_itemLines_singleton, List.length_append]
      omega
    | cons next items =>
      rw [toList_itemLines_cons_cons]
      simp only [List.length_append, List.length_cons]
      rcases List.mem_cons.1 h with rfl | hmem
      · omega
      · have := ih hmem
        omega

variable {openingText closingText : String} {opening : Char}

theorem toList_container_nil (h : IsBrackets openingText closingText opening closing)
    (level : Nat) : (container openingText closingText level []).toList = [opening, closing] := by
  simp [container, h.toList_opening, h.toList_closing]

/-- A container with items in it. -/
theorem toList_container (h : IsBrackets openingText closingText opening closing)
    (hne : items ≠ []) (write : α → String) (level : Nat) :
    (container openingText closingText level (items.map write)).toList =
      opening :: '\n' :: ((itemLines write (level + 1) items).toList ++
        '\n' :: ((indentation level).toList ++ [closing])) := by
  have hitems : (items.map write).isEmpty = false := by simpa using hne
  simp [container, itemLines, hitems, h.toList_opening, h.toList_closing]

theorem length_container_pos (h : IsBrackets openingText closingText opening closing)
    (items : List α) (write : α → String) (level : Nat) :
    0 < (container openingText closingText level (items.map write)).toList.length := by
  rcases eq_or_ne items [] with rfl | hne
  · rw [List.map_nil, toList_container_nil h]
    exact Nat.succ_pos _
  · rw [toList_container h hne]
    exact Nat.succ_pos _

/-- A container is longer than the text of each of its items. -/
theorem length_lt_length_container (h : IsBrackets openingText closingText opening closing)
    (hmem : item ∈ items) (write : α → String) (level : Nat) :
    (write item).toList.length <
      (container openingText closingText level (items.map write)).toList.length := by
  have hlines := length_le_length_itemLines_of_mem write (level + 1) hmem
  rw [toList_container h (List.ne_nil_of_mem hmem)]
  simp only [List.length_cons, List.length_append]
  omega

/-- **What a container holds is read back**, whatever the level at which it stands. -/
theorem exists_containerBody? (h : IsBrackets openingText closingText opening closing)
    (hitems : ∀ item ∈ items, IsTextOf read (write item).toList item) (level : Nat)
    (rest : List Char) :
    ∃ body, (container openingText closingText level (items.map write)).toList ++ rest =
        opening :: body ∧
      containerBody? read closing body = some (items, rest) := by
  rcases eq_or_ne items [] with rfl | hne
  · refine ⟨closing :: rest, by rw [List.map_nil, toList_container_nil h]; rfl, ?_⟩
    rw [containerBody?, skipSpaces_cons (isSpace_of_closing h.closing_mem), expect_self]
  · refine ⟨'\n' :: ((itemLines write (level + 1) items).toList ++
      '\n' :: ((indentation level).toList ++ closing :: rest)),
      by simp [toList_container h hne], ?_⟩
    have hlength := length_le_length_itemLines hitems (level + 1)
    obtain ⟨c, more, hcons, hspace, hopen⟩ := exists_toList_itemLines hne hitems (level + 1)
    -- the first item does not start with the closing bracket, so the container is not empty
    have hstart : expect closing (skipSpaces ('\n' ::
        ((itemLines write (level + 1) items).toList ++
          '\n' :: ((indentation level).toList ++ closing :: rest)))) = none := by
      have hne : c ≠ closing := by
        rintro rfl
        exact hopen h.closing_mem
      rw [skipSpaces_feed, hcons, List.append_assoc, skipSpaces_indentation, List.cons_append,
        skipSpaces_cons hspace, expect, if_neg hne]
    rw [containerBody?, hstart]
    refine (items?_congr (skipSpaces_feed _)).trans
      (items?_itemLines hne hitems h.closing_mem ?_ (level + 1) level rest)
    simp only [List.length_cons, List.length_append]
    omega

/-- A container is read back if its items are, to which one level less of depth is left. -/
theorem isTextOf_container {readValue : Nat → List Char → Option (Json × List Char)}
    {readItem : Nat → List Char → Option (α × List Char)} {make : List α → Json}
    (h : IsBrackets openingText closingText opening closing)
    (hread : ∀ depth text, readValue (depth + 1) (opening :: text) =
      (containerBody? (readItem depth) closing text).map fun (items, rest) ↦ (make items, rest))
    (hitems : ∀ item ∈ items, ∀ depth, (write item).toList.length ≤ depth →
      IsTextOf (readItem depth) (write item).toList item) {level depth : Nat}
    (hdepth : (container openingText closingText level (items.map write)).toList.length ≤ depth) :
    IsTextOf (readValue depth)
      (container openingText closingText level (items.map write)).toList (make items) := by
  have hpos := length_container_pos h items write level
  obtain ⟨depth, rfl⟩ : ∃ depth', depth = depth' + 1 := ⟨depth - 1, by omega⟩
  have hwithin : ∀ item ∈ items, IsTextOf (readItem depth) (write item).toList item := by
    intro item hmem
    have hlength := length_lt_length_container h hmem write level
    exact hitems item hmem depth (by omega)
  refine ⟨fun rest _ ↦ ?_, opening, ?_⟩
  · obtain ⟨body, htext, hbody⟩ := exists_containerBody? h hwithin level rest
    rw [htext, hread, hbody]
    rfl
  · obtain ⟨body, htext, -⟩ := exists_containerBody? h hwithin level []
    exact ⟨body, by simpa using htext, h.starts⟩

end Container

/-! ### Values -/

theorem printItems_eq_map (level : Nat) (items : List Json) :
    printItems level items = items.map (printAt level) := by
  induction items with
  | nil => rfl
  | cons item items ih => rw [printItems, ih, List.map_cons]

/-- The text of a member. -/
def memberText (level : Nat) (member : String × Json) : String :=
  quoted member.1 ++ ": " ++ printAt level member.2

theorem printMembers_eq_map (level : Nat) (members : List (String × Json)) :
    printMembers level members = members.map (memberText level) := by
  induction members with
  | nil => rfl
  | cons member members ih => rw [printMembers, ih, List.map_cons, memberText]

theorem valueWithin?_list (depth : Nat) (text : List Char) :
    valueWithin? (depth + 1) ('[' :: text) =
      (containerBody? (valueWithin? depth) ']' text).map fun (items, rest) ↦
        (.array items, rest) := by
  rw [valueWithin?.eq_def]
  rfl

theorem valueWithin?_object (depth : Nat) (text : List Char) :
    valueWithin? (depth + 1) ('\x7b' :: text) =
      (containerBody? (namedValue? (valueWithin? depth)) '\x7d' text).map fun (members, rest) ↦
        (.object members, rest) := by
  rw [valueWithin?.eq_def]
  rfl

theorem isTextOf_string (depth : Nat) (text : String) :
    IsTextOf (valueWithin? depth) (quoted text).toList (.string text) where
  read_append rest _ := by
    rw [toList_quoted, List.cons_append, List.append_assoc, List.singleton_append,
      valueWithin?.eq_def]
    simp only [if_true, stringBody?_append, Option.map_some, String.ofList_toList]
  starts := ⟨'"', _, toList_quoted text, by decide, by decide⟩

/-- A value that is no string and no container. -/
theorem isTextOf_plain {value : Json} (depth : Nat) (hcons : ∃ c more, text = c :: more ∧
      isSpace c = false ∧ c ∉ [']', '\x7d', '"', '[', '\x7b'])
    (h : ∀ rest, EndsValue rest → plainValue? (text ++ rest) = some (value, rest)) :
    IsTextOf (valueWithin? depth) text value := by
  obtain ⟨c, more, rfl, hspace, hne⟩ := hcons
  simp only [List.mem_cons, List.not_mem_nil, or_false, not_or] at hne
  obtain ⟨hbracket, hbrace, hquote, hlist, hobject⟩ := hne
  refine ⟨fun rest hrest ↦ ?_, c, more, rfl, hspace, by simp [hbracket, hbrace]⟩
  have hplain := h rest hrest
  rw [List.cons_append] at hplain ⊢
  rw [valueWithin?.eq_def]
  simp only [if_neg hquote, if_neg hlist, if_neg hobject, hplain]

theorem isTextOf_number (depth n : Nat) :
    IsTextOf (valueWithin? depth) (Nat.toDigits 10 n) (.number n) := by
  obtain ⟨d, more, hmore⟩ := List.exists_cons_of_ne_nil (Nat.toDigits_ne_nil (n := n) (b := 10))
  have hdigit : d.isDigit = true :=
    Nat.isDigit_of_mem_toDigits (by decide) (by decide) (hmore ▸ List.mem_cons_self)
  have hne : ∀ e : Char, e.isDigit = false → d ≠ e := by
    rintro e he rfl
    exact Bool.false_ne_true (he.symm.trans hdigit)
  refine isTextOf_plain depth ⟨d, more, hmore, ?_, ?_⟩ fun rest hrest ↦ ?_
  · simp [isSpace, hne ' ' (by decide), hne '\t' (by decide), hne '\n' (by decide),
      hne '\r' (by decide)]
  · simp [hne ']' (by decide), hne '\x7d' (by decide), hne '"' (by decide), hne '[' (by decide),
      hne '\x7b' (by decide)]
  · have hcount := number?_append n hrest
    rw [hmore, List.cons_append] at hcount ⊢
    simp only [plainValue?, expectWord_cons_eq_none (hne 'n' (by decide)),
      expectWord_cons_eq_none (hne 't' (by decide)),
      expectWord_cons_eq_none (hne 'f' (by decide)), hcount]
    rfl

/-- A member of an object is read back if its value is. -/
theorem isTextOf_member {read : List Char → Option (Json × List Char)} {level : Nat}
    {member : String × Json} (h : IsTextOf read (printAt level member.2).toList member.2) :
    IsTextOf (namedValue? read) (memberText level member).toList member := by
  obtain ⟨c, more, hcons, hspace, -⟩ := h.starts
  have htext (rest : List Char) : (memberText level member).toList ++ rest =
      '"' :: (member.1.toList.flatMap escapeChar ++
        '"' :: ':' :: ' ' :: ((printAt level member.2).toList ++ rest)) := by
    simp [memberText, toList_quoted]
  refine ⟨fun rest hrest ↦ ?_, '"', _, by simpa using htext [], by decide, by decide⟩
  have hvalue : skipSpaces (' ' :: ((printAt level member.2).toList ++ rest)) =
      (printAt level member.2).toList ++ rest := by
    rw [hcons]
    exact skipSpaces_cons hspace _
  rw [htext, namedValue?, expect_self]
  simp only [Option.bind_eq_bind, Option.bind_some, stringBody?_append,
    skipSpaces_cons (show isSpace ':' = false by decide), expect_self, hvalue,
    h.read_append rest hrest, String.ofList_toList]

/-- What holds of a container if it holds of all values in it, holds of every value. -/
theorem containerInduction {motive : Json → Prop} (null : motive .null)
    (bool : ∀ b, motive (.bool b)) (number : ∀ n, motive (.number n))
    (string : ∀ text, motive (.string text))
    (array : ∀ items, (∀ item ∈ items, motive item) → motive (.array items))
    (object : ∀ members, (∀ member ∈ members, motive member.2) → motive (.object members)) :
    ∀ value, motive value
  | .null => null
  | .bool b => bool b
  | .number n => number n
  | .string text => string text
  | .array items => array items fun item hmem ↦
    have := List.sizeOf_lt_of_mem hmem
    containerInduction null bool number string array object item
  | .object members => object members fun member hmem ↦
    have := List.sizeOf_lt_of_mem hmem
    containerInduction null bool number string array object member.2
termination_by value => sizeOf value
decreasing_by
  · simp only [Json.array.sizeOf_spec]
    omega
  · cases member
    simp only [Json.object.sizeOf_spec, Prod.mk.sizeOf_spec] at *
    omega

/-- **A printed value is read back** wherever it stands, if its text is not longer than it may be
deep. -/
theorem isTextOf_printAt (value : Json) {level depth : Nat}
    (h : (printAt level value).toList.length ≤ depth) :
    IsTextOf (valueWithin? depth) (printAt level value).toList value := by
  induction value using containerInduction generalizing level depth with
  | null =>
    rw [printAt]
    exact isTextOf_plain depth ⟨'n', ['u', 'l', 'l'], rfl, by decide, by decide⟩ fun _ _ ↦ rfl
  | bool b =>
    cases b with
    | true =>
      rw [printAt]
      exact isTextOf_plain depth ⟨'t', ['r', 'u', 'e'], rfl, by decide, by decide⟩ fun _ _ ↦ rfl
    | false =>
      rw [printAt]
      exact isTextOf_plain depth ⟨'f', ['a', 'l', 's', 'e'], rfl, by decide, by decide⟩
        fun _ _ ↦ rfl
  | number n =>
    rw [printAt, String.toList_ofList]
    exact isTextOf_number depth n
  | string text =>
    rw [printAt]
    exact isTextOf_string depth text
  | array items ih =>
    rw [printAt, printItems_eq_map] at h ⊢
    exact isTextOf_container isBrackets_list valueWithin?_list
      (fun item hmem depth hlength ↦ ih item hmem hlength) h
  | object members ih =>
    rw [printAt, printMembers_eq_map] at h ⊢
    refine isTextOf_container isBrackets_object valueWithin?_object
      (fun member hmem depth hlength ↦ isTextOf_member (ih member hmem ?_)) h
    simp only [memberText, String.toList_append, List.length_append] at hlength
    omega

/-- **Reading undoes printing**, whatever the value is. White space may follow the printed text. -/
theorem parse?_print_append (value : Json) {spaces : String}
    (h : ∀ c ∈ spaces.toList, isSpace c = true) : parse? (value.print ++ spaces) = some value := by
  have htext : (value.print ++ spaces).toList = (printAt 0 value).toList ++ spaces.toList :=
    String.toList_append
  have hvalue : IsTextOf (valueWithin? (value.print ++ spaces).toList.length)
      (printAt 0 value).toList value := by
    refine isTextOf_printAt value ?_
    rw [htext, List.length_append]
    omega
  have hends : EndsValue spaces.toList := by
    intro c hc
    have hspace := h c (List.mem_of_mem_head? hc)
    simp only [isSpace, Bool.or_eq_true, beq_iff_eq] at hspace
    rcases hspace with ((rfl | rfl) | rfl) | rfl <;> decide
  have hskip : skipSpaces (value.print ++ spaces).toList = (value.print ++ spaces).toList := by
    obtain ⟨c, more, hcons, hspace, -⟩ := hvalue.starts
    rw [htext, hcons]
    exact skipSpaces_cons hspace _
  have hend : skipSpaces spaces.toList = [] := List.dropWhile_eq_nil_iff.2 h
  rw [parse?, hskip]
  nth_rewrite 2 [htext]
  simp only [hvalue.read_append spaces.toList hends, Option.bind_eq_bind, Option.bind_some, hend,
    if_true]

end SchemaDiagram.Json
