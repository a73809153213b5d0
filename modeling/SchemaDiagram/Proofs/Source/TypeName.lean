import SchemaDiagram.Proofs.Source.Name
import SchemaDiagram.Proofs.Text.UpperCase

/-!
# Types by their qualified names

A type is named by a word behind the place where the types are found. The names of that place can be
spelled in several ways (`SpellsNamespace`), and one spelling may be the front of another, so a
reader has to try the longer one first and to come back from it. Which word it finds is settled by
the text alone (`typeWord?_eq_some_iff`): the two readings disagree only where the word could itself
be one of the names.

A list type names the type of its elements in the same way, behind a parenthesis. Its own name is
recognised twice, once by its upper case and once by its ASCII letters, which comes to the same
(`map_toUpper_of_upper_eq_array`).
-/

namespace SchemaDiagram.Source

open Text

/-! ### The names before a type -/

theorem isIdentifier_dataTypesName : IsIdentifier dataTypesName :=
  ⟨⟨'D', _, rfl, by decide⟩, List.all_eq_true.1 (by decide)⟩

theorem isIdentifier_libraryName : IsIdentifier libraryName :=
  ⟨⟨'S', _, rfl, by decide⟩, List.all_eq_true.1 (by decide)⟩

theorem dataTypesName_ne_libraryName : dataTypesName ≠ libraryName := by decide

/-- One of the two names that can stand directly before a type. -/
def IsHolder (name : List Char) : Prop := name = dataTypesName ∨ name = libraryName

/-- The names by which the place of the types is called. -/
def namespaces : List (List (List Char)) :=
  [[dataTypesName], [libraryName], [libraryName, dataTypesName]]

/-- The qualifiers spell the place of the types. Since the library's name may stand before either
holder, it may also stand twice. -/
def SpellsNamespace (qualifiers : List Qualifier) : Prop :=
  qualifiers.map Qualifier.name ∈ namespaces ∨
    qualifiers.map Qualifier.name = [libraryName, libraryName]

/-- A namespace is one holder, behind which no name of the library stands or one. -/
theorem spellsNamespace_iff {qualifiers : List Qualifier} : SpellsNamespace qualifiers ↔
    (∃ q, qualifiers = [q] ∧ IsHolder q.name) ∨
      ∃ q holder, qualifiers = [q, holder] ∧ q.name = libraryName ∧ IsHolder holder.name := by
  rcases qualifiers with - | ⟨q, - | ⟨holder, - | ⟨other, qualifiers⟩⟩⟩
  · simp [SpellsNamespace, namespaces]
  · simp [SpellsNamespace, namespaces, IsHolder]
  · simp [SpellsNamespace, namespaces, IsHolder]
    tauto
  · simp [SpellsNamespace, namespaces]

/-! ### Reading one name -/

variable {text rest name word : List Char}

theorem Qualifier.text_append (q : Qualifier) (rest : List Char) :
    q.text ++ rest = q.name ++ (q.beforeDot.text ++ '.' :: (q.afterDot.text ++ rest)) := by
  simp [text]

theorem afterMember_text (q : Qualifier) (rest : List Char) :
    afterMember q.name (q.text ++ rest) = some (skipBlanks rest) := by
  simp only [afterMember, q.text_append, expectWord_append, Option.bind_eq_bind, Option.bind_some,
    expectToken_gap q.beforeDot (show isBlank '.' = false by decide), skipBlanks_gap]

/-- What a name and its dot are read from; the white space behind the dot is read with them. -/
theorem exists_qualifier_of_afterMember (hname : IsIdentifier name)
    (h : afterMember name text = some rest) :
    ∃ q : Qualifier, q.name = name ∧ text = q.text ++ rest ∧ skipBlanks rest = rest := by
  simp only [afterMember, Option.bind_eq_bind, Option.bind_eq_some_iff, Option.some.injEq] at h
  obtain ⟨behind, hbehind, mid, hmid, rfl⟩ := h
  obtain ⟨beforeDot, rfl⟩ := eq_gap_append_of_expectToken hmid
  obtain ⟨afterDot, hafter⟩ := exists_gap_append_skipBlanks mid
  refine ⟨⟨name, beforeDot, afterDot, hname⟩, rfl, ?_, ?_⟩
  · rw [Qualifier.text_append, ← hafter, expectWord_eq_some_iff.1 hbehind]
  · calc skipBlanks (skipBlanks mid) = skipBlanks (afterDot.text ++ skipBlanks mid) :=
        (skipBlanks_gap afterDot _).symm
      _ = skipBlanks mid := by rw [← hafter]

/-- Another word is not mistaken for the name, even if it starts with it. -/
theorem afterMember_word (hname : IsIdentifier name) (hword : ∀ c ∈ word, isWordChar c = true)
    (hne : word ≠ name) (hrest : startsWord rest = false) :
    afterMember name (word ++ rest) = none := by
  refine Option.eq_none_iff_forall_not_mem.2 fun behind hbehind ↦ hne ?_
  obtain ⟨q, rfl, htext, -⟩ := exists_qualifier_of_afterMember hname hbehind
  rw [q.text_append] at htext
  exact eq_of_word_append hword hname.isWordChar_of_mem hrest
    (startsWord_gap_cons q.beforeDot (by decide) _) htext

/-- Another qualifier is not mistaken for the name. -/
theorem afterMember_text_of_ne (hname : IsIdentifier name) {q : Qualifier} (hne : q.name ≠ name)
    (rest : List Char) : afterMember name (q.text ++ rest) = none := by
  rw [q.text_append]
  exact afterMember_word hname q.isIdentifier_name.isWordChar_of_mem hne
    (startsWord_gap_cons q.beforeDot (by decide) _)

theorem afterHolder_text {q : Qualifier} (hq : IsHolder q.name) (rest : List Char) :
    afterHolder (q.text ++ rest) = some (skipBlanks rest) := by
  rcases hq with hq | hq
  · rw [afterHolder, ← hq, afterMember_text, Option.some_or]
  · have hne : q.name ≠ dataTypesName := by rw [hq]; exact dataTypesName_ne_libraryName.symm
    rw [afterHolder, afterMember_text_of_ne isIdentifier_dataTypesName hne, Option.none_or, ← hq,
      afterMember_text]

theorem exists_qualifier_of_afterHolder (h : afterHolder text = some rest) :
    ∃ q : Qualifier, IsHolder q.name ∧ text = q.text ++ rest ∧ skipBlanks rest = rest := by
  rw [afterHolder, Option.or_eq_some_iff] at h
  rcases h with h | ⟨-, h⟩
  · obtain ⟨q, hq, htext⟩ := exists_qualifier_of_afterMember isIdentifier_dataTypesName h
    exact ⟨q, .inl hq, htext⟩
  · obtain ⟨q, hq, htext⟩ := exists_qualifier_of_afterMember isIdentifier_libraryName h
    exact ⟨q, .inr hq, htext⟩

theorem afterHolder_word (hword : ∀ c ∈ word, isWordChar c = true) (hne : ¬IsHolder word)
    (hrest : startsWord rest = false) : afterHolder (word ++ rest) = none := by
  have hdata : word ≠ dataTypesName := fun h ↦ hne (.inl h)
  have hlibrary : word ≠ libraryName := fun h ↦ hne (.inr h)
  rw [afterHolder, afterMember_word isIdentifier_dataTypesName hword hdata hrest, Option.none_or,
    afterMember_word isIdentifier_libraryName hword hlibrary hrest]

/-! ### Reading a namespace -/

theorem skipBlanks_word (hword : IsWord word) (rest : List Char) :
    skipBlanks (word ++ rest) = word ++ rest := by
  obtain ⟨c, more, rfl⟩ := List.exists_cons_of_ne_nil hword.ne_nil
  exact skipBlanks_cons (isBlank_of_isWordChar (hword.isWordChar_of_mem c List.mem_cons_self)) _

/-- **Behind a namespace the word is found first.** The other place to look for one starts with a
holder. -/
theorem exists_afterNamespace_eq_cons {qualifiers : List Qualifier}
    (h : SpellsNamespace qualifiers) (hword : IsWord word) (hne : ¬IsHolder word)
    (hrest : startsWord rest = false) :
    ∃ others, afterNamespace (qualifiers.flatMap Qualifier.text ++ (word ++ rest)) =
        (word ++ rest) :: others ∧
      ∀ other ∈ others, ∃ (q : Qualifier) (behind : List Char), IsHolder q.name ∧
        other = q.text ++ behind := by
  rcases spellsNamespace_iff.1 h with ⟨q, rfl, hq⟩ | ⟨q, holder, rfl, hq, hholder⟩
  · -- the longer reading finds no second name
    have hlonger :
        (afterMember libraryName (q.text ++ (word ++ rest))).bind afterHolder = none := by
      by_cases hlibrary : q.name = libraryName
      · rw [← hlibrary, afterMember_text, Option.bind_some, skipBlanks_word hword,
          afterHolder_word hword.isWordChar_of_mem hne hrest]
      · rw [afterMember_text_of_ne isIdentifier_libraryName hlibrary, Option.bind_none]
    refine ⟨[], ?_, nofun⟩
    simp only [List.flatMap_cons, List.flatMap_nil, List.append_nil, afterNamespace, hlonger,
      afterHolder_text hq, skipBlanks_word hword, Option.toList_none, Option.toList_some,
      List.nil_append]
  · have hskip : skipBlanks (holder.text ++ (word ++ rest)) = holder.text ++ (word ++ rest) := by
      rw [holder.text_append]
      exact skipBlanks_word holder.isIdentifier_name.isWord _
    refine ⟨[holder.text ++ (word ++ rest)], ?_, ?_⟩
    · simp only [List.flatMap_cons, List.flatMap_nil, List.append_nil, List.append_assoc,
        afterNamespace, afterHolder_text (.inr hq), ← hq, afterMember_text, hskip,
        Option.bind_some, afterHolder_text hholder, skipBlanks_word hword, Option.toList_some,
        List.cons_append, List.nil_append]
    · rintro other hother
      exact ⟨holder, _, hholder, List.mem_singleton.1 hother⟩

theorem word?_isWord (hword : IsWord word) (hrest : startsWord rest = false) :
    word? (word ++ rest) = some (word, rest) :=
  word?_append hword.ne_nil hword.isWordChar_of_mem hrest

theorem startsWord_dropWhile (text : List Char) :
    startsWord (text.dropWhile isWordChar) = false := by
  cases hdrop : text.dropWhile isWordChar with
  | nil => rfl
  | cons c rest =>
    have hhead := List.head_dropWhile_not isWordChar (l := text) (by simp [hdrop])
    simpa only [startsWord_cons, hdrop, List.head_cons] using hhead

/-- What a word is read from. -/
theorem eq_append_of_word? (h : word? text = some (word, rest)) :
    text = word ++ rest ∧ startsWord rest = false := by
  rw [word?] at h
  split at h
  · obtain ⟨rfl, rfl⟩ := Prod.mk.inj (Option.some.inj h)
    exact ⟨List.takeWhile_append_dropWhile.symm, startsWord_dropWhile text⟩
  · exact absurd h.symm (Option.some_ne_none _)

theorem isSome_word?_iff : (word? text).isSome = startsWord text := by
  rw [word?]
  split <;> simp_all

/-! ### The word that names a type -/

/-- The text names the type of a word: behind a namespace stands the word, and it ends there. -/
def NamesType (word text : List Char) : Prop :=
  IsWord word ∧ ∃ qualifiers rest, SpellsNamespace qualifiers ∧ startsWord rest = false ∧
    text = qualifiers.flatMap Qualifier.text ++ (word ++ rest)

/-- The text starts with one of the holders, a dot and some word. -/
def StartsWithType (text : List Char) : Prop :=
  ∃ (q : Qualifier) (rest : List Char), IsHolder q.name ∧ startsWord rest = true ∧
    text = q.text ++ rest

theorem typeWord?_of_namesType (h : NamesType word text) (hne : ¬IsHolder word) :
    typeWord? text = some word := by
  obtain ⟨hword, qualifiers, rest, hqualifiers, hrest, rfl⟩ := h
  obtain ⟨others, hplaces, -⟩ := exists_afterNamespace_eq_cons hqualifiers hword hne hrest
  rw [typeWord?, hplaces, List.findSome?_cons, word?_isWord hword hrest, Option.map_some]

/-- The places behind a namespace are those at which a type may be named. -/
theorem mem_afterNamespace (h : rest ∈ afterNamespace text) :
    skipBlanks rest = rest ∧
      ∃ qualifiers, SpellsNamespace qualifiers ∧
        text = qualifiers.flatMap Qualifier.text ++ rest := by
  rw [afterNamespace, List.mem_append, Option.mem_toList, Option.mem_toList] at h
  rcases h with hrest | hrest
  · obtain ⟨mid, hmid, hrest⟩ := Option.bind_eq_some_iff.1 hrest
    obtain ⟨q, hq, htext, -⟩ := exists_qualifier_of_afterMember isIdentifier_libraryName hmid
    obtain ⟨holder, hholder, hmidText, hskip⟩ := exists_qualifier_of_afterHolder hrest
    refine ⟨hskip, [q, holder], spellsNamespace_iff.2 (.inr ⟨q, holder, rfl, hq, hholder⟩), ?_⟩
    rw [htext, hmidText]
    simp
  · obtain ⟨q, hq, htext, hskip⟩ := exists_qualifier_of_afterHolder hrest
    exact ⟨hskip, [q], spellsNamespace_iff.2 (.inl ⟨q, rfl, hq⟩), by rw [htext]; simp⟩

theorem namesType_of_typeWord? (h : typeWord? text = some word) : NamesType word text := by
  obtain ⟨mid, hmid, hword⟩ := List.exists_of_findSome?_eq_some h
  obtain ⟨⟨found, rest⟩, hfound, rfl⟩ := Option.map_eq_some_iff.1 hword
  obtain ⟨-, qualifiers, hqualifiers, rfl⟩ := mem_afterNamespace hmid
  obtain ⟨rfl, hrest⟩ := eq_append_of_word? hfound
  exact ⟨isWord_of_word? hfound, qualifiers, rest, hqualifiers, hrest, rfl⟩

/-- **Which word names a type.** The names of the holders are left out, since the text may go on
with a dot behind them. -/
theorem typeWord?_eq_some_iff (hne : ¬IsHolder word) :
    typeWord? text = some word ↔ NamesType word text :=
  ⟨namesType_of_typeWord?, fun h ↦ typeWord?_of_namesType h hne⟩

/-- A type is named exactly if a holder, a dot and a word stand at the front: if the longer reading
fails, the shorter one takes the word. -/
theorem typeWord?_eq_none_iff : typeWord? text = none ↔ ¬StartsWithType text := by
  rw [typeWord?, List.findSome?_eq_none_iff]
  constructor
  · rintro h ⟨q, rest, hq, hstart, rfl⟩
    obtain ⟨c, more, rfl⟩ : ∃ c more, rest = c :: more := by
      cases rest with
      | nil => exact absurd hstart Bool.false_ne_true
      | cons c more => exact ⟨c, more, rfl⟩
    have hskip := skipBlanks_cons (isBlank_of_isWordChar hstart) more
    have hmem : c :: more ∈ afterNamespace (q.text ++ c :: more) := by
      rw [afterNamespace, afterHolder_text hq, hskip]
      exact List.mem_append_right _ (List.mem_singleton_self _)
    have hnone := Option.map_eq_none_iff.1 (h _ hmem)
    rw [← Option.not_isSome_iff_eq_none, isSome_word?_iff] at hnone
    exact hnone hstart
  · intro h mid hmid
    rw [Option.map_eq_none_iff, ← Option.not_isSome_iff_eq_none, isSome_word?_iff]
    intro hstart
    obtain ⟨-, qualifiers, hqualifiers, rfl⟩ := mem_afterNamespace hmid
    rcases spellsNamespace_iff.1 hqualifiers with ⟨q, rfl, hq⟩ | ⟨q, holder, rfl, hq, -⟩
    · exact h ⟨q, mid, hq, hstart, by simp⟩
    · -- the name of the second holder is a word, too
      refine h ⟨q, holder.text ++ mid, .inr hq, ?_, by simp⟩
      obtain ⟨c, more, hname, hc⟩ := holder.isIdentifier_name.start
      rw [holder.text_append, hname]
      exact isWordChar_of_isIdentifierStart hc

/-! ### The word that names the type of elements -/

/-- Behind a type stands a parenthesis, and behind that a text. -/
def OpensArgument (rest argument : List Char) : Prop :=
  ∃ before inside : Gap, rest = before.text ++ '(' :: (inside.text ++ argument)

/-- The word that the first argument behind a type names. -/
def argumentWord? (rest : List Char) : Option (List Char) :=
  (expectToken '(' rest).bind fun argument ↦ typeWord? (skipBlanks argument)

theorem argumentWord?_of_opensArgument {argument : List Char} (h : OpensArgument rest argument)
    (hskip : skipBlanks argument = argument) : argumentWord? rest = typeWord? argument := by
  obtain ⟨before, inside, rfl⟩ := h
  rw [argumentWord?, expectToken_gap before (by decide), Option.bind_some, skipBlanks_gap, hskip]

theorem exists_opensArgument_of_argumentWord? (h : argumentWord? rest = some word) :
    ∃ argument, OpensArgument rest argument ∧ typeWord? argument = some word := by
  obtain ⟨mid, hmid, hword⟩ := Option.bind_eq_some_iff.1 h
  obtain ⟨before, rfl⟩ := eq_gap_append_of_expectToken hmid
  obtain ⟨inside, hinside⟩ := exists_gap_append_skipBlanks mid
  exact ⟨skipBlanks mid, ⟨before, inside, by rw [← hinside]⟩, hword⟩

/-- A text that starts with a qualifier starts with no white space. -/
theorem skipBlanks_text (q : Qualifier) (rest : List Char) :
    skipBlanks (q.text ++ rest) = q.text ++ rest := by
  rw [q.text_append]
  exact skipBlanks_word q.isIdentifier_name.isWord _

theorem skipBlanks_of_startsWithType (h : StartsWithType text) : skipBlanks text = text := by
  obtain ⟨q, rest, -, -, rfl⟩ := h
  exact skipBlanks_text q rest

theorem argumentWord?_eq_some_iff (hne : ¬IsHolder word) : argumentWord? rest = some word ↔
    ∃ argument, OpensArgument rest argument ∧ NamesType word argument := by
  constructor
  · intro h
    obtain ⟨argument, hopens, hword⟩ := exists_opensArgument_of_argumentWord? h
    exact ⟨argument, hopens, namesType_of_typeWord? hword⟩
  · rintro ⟨argument, hopens, hnames⟩
    have htype := typeWord?_of_namesType hnames hne
    have hstart : StartsWithType argument := by
      by_contra hnone
      rw [typeWord?_eq_none_iff.2 hnone] at htype
      exact absurd htype.symm (Option.some_ne_none _)
    rw [argumentWord?_of_opensArgument hopens (skipBlanks_of_startsWithType hstart), htype]

theorem argumentWord?_eq_none_iff : argumentWord? rest = none ↔
    ¬∃ argument, OpensArgument rest argument ∧ StartsWithType argument := by
  constructor
  · rintro h ⟨argument, hopens, hstart⟩
    rw [argumentWord?_of_opensArgument hopens (skipBlanks_of_startsWithType hstart),
      typeWord?_eq_none_iff] at h
    exact h hstart
  · intro h
    refine Option.eq_none_iff_forall_not_mem.2 fun word hword ↦ h ?_
    obtain ⟨argument, hopens, hword⟩ := exists_opensArgument_of_argumentWord? hword
    refine ⟨argument, hopens, ?_⟩
    by_contra hnone
    rw [typeWord?_eq_none_iff.2 hnone] at hword
    exact absurd hword.symm (Option.some_ne_none _)

theorem afterArrayWord_append (hword : word.map Char.toUpper = ['A', 'R', 'R', 'A', 'Y'])
    (rest : List Char) : afterArrayWord (word ++ rest) = some rest := by
  have hlength : word.length = 5 := by simpa using congrArg List.length hword
  rw [afterArrayWord, ← hlength, List.take_left, List.drop_left, if_pos hword]

/-- No array type is named by a holder. -/
theorem afterArrayWord_holder {q : Qualifier} (hq : IsHolder q.name) (rest : List Char) :
    afterArrayWord (q.text ++ rest) = none := by
  rw [q.text_append, afterArrayWord]
  rcases hq with hq | hq <;>
  · rw [hq, List.take_append_of_le_length (by decide)]
    exact if_neg (by decide)

/-- **The element type of an array is that of its first argument**, however the place of the array
type is spelled. -/
theorem elementWord?_array {qualifiers : List Qualifier} (h : SpellsNamespace qualifiers)
    (hword : IsWord word) (hne : ¬IsHolder word) (hrest : startsWord rest = false)
    (harray : word.map Char.toUpper = ['A', 'R', 'R', 'A', 'Y']) :
    elementWord? (qualifiers.flatMap Qualifier.text ++ (word ++ rest)) = argumentWord? rest := by
  obtain ⟨others, hplaces, hothers⟩ := exists_afterNamespace_eq_cons h hword hne hrest
  have hnone : others.findSome? (fun rest ↦ do
      let rest ← afterArrayWord rest
      let rest ← expectToken '(' rest
      typeWord? (skipBlanks rest)) = none := by
    refine List.findSome?_eq_none_iff.2 fun other hother ↦ ?_
    obtain ⟨q, behind, hq, rfl⟩ := hothers other hother
    rw [afterArrayWord_holder hq]
    rfl
  rw [elementWord?, hplaces, List.findSome?_cons, hnone, afterArrayWord_append harray]
  simp only [Option.bind_eq_bind, Option.bind_some]
  rw [← argumentWord?]
  cases argumentWord? rest <;> rfl

/-! ### Types -/

theorem readType_of_typeWord? {value : List Char} (h : typeWord? value = some word) :
    readType value =
      .ofTag (upper (String.ofList word)) ((elementWord? value).map String.ofList) := by
  rw [readType, h]

theorem ofTag_ne_unknown (tag : String) (element : Option String) :
    FieldType.ofTag tag element ≠ .unknown := by
  unfold FieldType.ofTag
  split
  · exact FieldType.noConfusion
  · split <;> exact FieldType.noConfusion

/-- **How a type is read from its qualified name.** The spelling of the namespace does not matter.
The word decides, by its upper case, whether the type is an enumeration, an array or a scalar type;
the elements of an array have the type that stands behind a parenthesis, if there is one. A value
that does not start with a holder, a dot and a word is no known type. -/
theorem readType_qualified :
    (∀ word rest, IsWord word → ¬IsHolder word → startsWord rest = false →
      ∃ element : Option (List Char),
        (∀ name, ¬IsHolder name → (element = some name ↔
          ∃ argument, OpensArgument rest argument ∧ NamesType name argument)) ∧
        (element = none ↔ ¬∃ argument, OpensArgument rest argument ∧ StartsWithType argument) ∧
        ∀ qualifiers, SpellsNamespace qualifiers →
          let type := readType (qualifiers.flatMap Qualifier.text ++ (word ++ rest))
          let tag := upper (String.ofList word)
          (tag = "ENUM" → type = .enum) ∧
            (tag = "ARRAY" → type = .array (element.map fun name ↦ upper (String.ofList name))) ∧
            (tag ≠ "ENUM" → tag ≠ "ARRAY" → type = .scalar tag)) ∧
      ∀ value, readType value = .unknown ↔ ¬StartsWithType value := by
  refine ⟨fun word rest hword hne hrest ↦ ?_, fun value ↦ ?_⟩
  · refine ⟨argumentWord? rest, fun name hname ↦ argumentWord?_eq_some_iff hname,
      argumentWord?_eq_none_iff, ?_⟩
    intro qualifiers hqualifiers type tag
    have htype : type = .ofTag tag
        ((elementWord? (qualifiers.flatMap Qualifier.text ++ (word ++ rest))).map String.ofList) :=
      readType_of_typeWord?
        (typeWord?_of_namesType ⟨hword, qualifiers, rest, hqualifiers, hrest, rfl⟩ hne)
    refine ⟨fun htag ↦ ?_, fun htag ↦ ?_, fun henum harray ↦ ?_⟩
    · rw [htype, htag]
      rfl
    · have hletters := map_toUpper_of_upper_eq_array htag
      rw [htype, htag, elementWord?_array hqualifiers hword hne hrest hletters]
      cases argumentWord? rest <;> rfl
    · rw [htype, FieldType.ofTag, if_neg henum, if_neg harray]
  · rw [← typeWord?_eq_none_iff]
    cases hword : typeWord? value with
    | none => simp [readType, hword]
    | some word => simp [readType_of_typeWord? hword, ofTag_ne_unknown]

/-- The holder alone, before the type of the elements. -/
def elementNamespace : List Qualifier :=
  [⟨dataTypesName, .none, .space, isIdentifier_dataTypesName⟩]

/-- The name of the library and the holder, with spaces around their dots. -/
def spacedNamespace : List Qualifier :=
  [⟨libraryName, .space, .none, isIdentifier_libraryName⟩,
    ⟨dataTypesName, .none, .space, isIdentifier_dataTypesName⟩]

theorem readType_spacedArray :
    IsWord "array".toList ∧ ¬IsHolder "array".toList ∧
      startsWord " ( DataTypes. string(8))".toList = false ∧ SpellsNamespace spacedNamespace ∧
      readType "Sequelize .DataTypes. array ( DataTypes. string(8))".toList =
        .array (some "STRING") := by
  have hword : IsWord "array".toList := ⟨by decide, List.all_eq_true.1 (by decide)⟩
  have hne : ¬IsHolder "array".toList := by unfold IsHolder; decide
  have hrest : startsWord " ( DataTypes. string(8))".toList = false := by decide
  have hspells : SpellsNamespace spacedNamespace := .inl (by decide)
  obtain ⟨element, hsome, -, htype⟩ := readType_qualified.1 _ _ hword hne hrest
  have hstring : ¬IsHolder "string".toList := by unfold IsHolder; decide
  have helement : element = some "string".toList :=
    (hsome _ hstring).2 ⟨_, ⟨.space, .space, rfl⟩,
      ⟨by decide, List.all_eq_true.1 (by decide)⟩, elementNamespace, "(8))".toList,
      .inl (by decide), by decide, rfl⟩
  obtain ⟨-, harray, -⟩ := htype spacedNamespace hspells
  refine ⟨hword, hne, hrest, hspells, (harray (by decide)).trans ?_⟩
  rw [helement]
  rfl

/-- **The library's name can stand twice before the type of the elements**, although that is none of
the names by which the place of the types is called. -/
theorem readType_doubledLibrary :
    let rest := "(Sequelize.Sequelize.STRING)".toList
    readType ("DataTypes.ARRAY".toList ++ rest) = .array (some "STRING") ∧
      ∀ (name behind : List Char) (qualifiers : List Qualifier), IsWord name → ¬IsHolder name →
        startsWord behind = false → qualifiers.map Qualifier.name ∈ namespaces →
          ¬OpensArgument rest (qualifiers.flatMap Qualifier.text ++ (name ++ behind)) := by
  refine ⟨by decide +kernel, ?_⟩
  rintro name behind qualifiers hname hne hbehind hnames ⟨before, inside, htext⟩
  have hopen : expectToken '(' "(Sequelize.Sequelize.STRING)".toList =
      some "Sequelize.Sequelize.STRING)".toList := by decide
  rw [htext, expectToken_gap before (by decide), Option.some.injEq] at hopen
  have hargument := congrArg skipBlanks hopen
  rw [skipBlanks_gap] at hargument
  rcases spellsNamespace_iff.1 (.inl hnames) with ⟨q, rfl, hq⟩ | ⟨q, holder, rfl, -, -⟩
  · rw [List.flatMap_singleton, skipBlanks_text] at hargument
    have hmember := congrArg afterHolder hargument
    rw [afterHolder_text hq, skipBlanks_word hname,
      show afterHolder (skipBlanks _) = some "Sequelize.STRING)".toList by decide] at hmember
    have hword := congrArg word? (Option.some.inj hmember)
    rw [word?_isWord hname hbehind,
      show word? _ = some (libraryName, ".STRING)".toList) by decide] at hword
    exact hne (.inr (Prod.mk.inj (Option.some.inj hword)).1)
  · obtain ⟨hq, hholder⟩ : q.name = libraryName ∧ holder.name = dataTypesName := by
      simpa [namespaces] using hnames
    simp only [List.flatMap_cons, List.append_assoc, skipBlanks_text] at hargument
    have hmember := congrArg (afterMember libraryName) hargument
    rw [← hq, afterMember_text, skipBlanks_text, hq,
      show afterMember libraryName (skipBlanks _) = some "Sequelize.STRING)".toList by decide]
      at hmember
    have hsecond := congrArg (afterMember dataTypesName) (Option.some.inj hmember)
    rw [← hholder, afterMember_text, hholder,
      show afterMember dataTypesName _ = none by decide] at hsecond
    exact absurd hsecond (Option.some_ne_none _)

end SchemaDiagram.Source
