import SchemaDiagram.Proofs.Source.CallGrammar
import SchemaDiagram.Source.ClassHeader

/-!
# The grammar of class headers

Which texts are headers of model classes, said without the readers: `class Name extends path.Model`,
with white space between the words and no word going on at either end (`ClassHeader`,
`IsHeaderAt`). The search for headers finds every one of them and nothing else
(`mem_classHeaders_iff`), although it goes on behind each header that it finds. So the class that
a place belongs to is the one with the last header before it (`exists_isLastHeaderBefore`).

## No header within another

The only words of a header are `class`, the name, `extends` and the members of the path, and a
header can begin at none but the first. What could be mistaken for a beginning is a name or a member
that is called `class`. But behind such a member stands a dot, and behind such a name the words
`extends` and the first member of the path would have to be a name and `extends`, where again a
dot follows (`classHeader?_name`).
-/

namespace SchemaDiagram.Source

open Text

/-! ### White space that must be there -/

theorem expectBlanks_gap {g : Gap} (hne : g.text ≠ []) (rest : List Char) :
    expectBlanks (g.text ++ rest) = some (skipBlanks (g.text ++ rest)) := by
  rcases hg : g.text with - | ⟨c, more⟩
  · exact absurd hg hne
  · have hblank : isBlank c = true := g.isBlank_of_mem c (by rw [hg]; exact List.mem_cons_self)
    simp [expectBlanks, skipBlanks, hblank]

theorem expectBlanks_gap_identifier {g : Gap} (hne : g.text ≠ []) {word : List Char}
    (hword : IsIdentifier word) (rest : List Char) :
    expectBlanks (g.text ++ (word ++ rest)) = some (word ++ rest) := by
  rw [expectBlanks_gap hne, skipBlanks_gap_identifier g hword]

theorem exists_gap_of_expectBlanks {text rest : List Char} (h : expectBlanks text = some rest) :
    ∃ g : Gap, g.text ≠ [] ∧ text = g.text ++ rest := by
  cases text with
  | nil => exact absurd h.symm (Option.some_ne_none _)
  | cons c text =>
    rw [expectBlanks] at h
    split at h
    · next hblank =>
      obtain ⟨g, hg⟩ := exists_gap_append_skipBlanks text
      obtain rfl := Option.some.inj h
      refine ⟨⟨c :: g.text, fun d hd ↦ ?_⟩, List.cons_ne_nil _ _, congrArg (c :: ·) hg⟩
      rcases List.mem_cons.1 hd with rfl | hd
      · exact hblank
      · exact g.isBlank_of_mem d hd
    · exact absurd h.symm (Option.some_ne_none _)

/-- An identifier that ends is cut off in one way. -/
theorem eq_of_identifier {word other rest rest' : List Char} (hword : IsIdentifier word)
    (hother : IsIdentifier other) (hrest : startsWord rest = false)
    (hrest' : startsWord rest' = false) (h : word ++ rest = other ++ rest') :
    word = other ∧ rest = rest' := by
  obtain rfl :=
    eq_of_word_append hword.isWordChar_of_mem hother.isWordChar_of_mem hrest hrest' h
  exact ⟨rfl, List.append_cancel_left h⟩

theorem eq_of_gap_identifier {g g' : Gap} {word other rest rest' : List Char}
    (hword : IsIdentifier word) (hother : IsIdentifier other) (hrest : startsWord rest = false)
    (hrest' : startsWord rest' = false)
    (h : g.text ++ (word ++ rest) = g'.text ++ (other ++ rest')) : word = other ∧ rest = rest' := by
  have hskip := congrArg skipBlanks h
  rw [skipBlanks_gap_identifier g hword, skipBlanks_gap_identifier g' hother] at hskip
  exact eq_of_identifier hword hother hrest hrest' hskip

/-- Behind white space stands a dot or an identifier, not both. -/
theorem gap_dot_ne_gap_identifier {g g' : Gap} {word rest rest' : List Char}
    (hword : IsIdentifier word) : g.text ++ '.' :: rest ≠ g'.text ++ (word ++ rest') := by
  intro h
  have hskip := congrArg skipBlanks h
  rw [skipBlanks_gap_cons g (by decide), skipBlanks_gap_identifier g' hword] at hskip
  obtain ⟨c, more, rfl, hc⟩ := hword.start
  obtain ⟨rfl, -⟩ := List.cons.inj hskip
  exact absurd hc (by decide)

/-! ### The base of a class -/

theorem isIdentifier_classWord : IsIdentifier classWord :=
  ⟨⟨_, _, rfl, by decide⟩, List.all_eq_true.1 (by decide)⟩

theorem isIdentifier_extendsWord : IsIdentifier extendsWord :=
  ⟨⟨_, _, rfl, by decide⟩, List.all_eq_true.1 (by decide)⟩

theorem isIdentifier_modelWord : IsIdentifier modelWord :=
  ⟨⟨_, _, rfl, by decide⟩, List.all_eq_true.1 (by decide)⟩

/-- The name of the base class behind a path, as it is written. -/
def baseText (qualifiers : List Qualifier) : List Char :=
  qualifiers.flatMap Qualifier.text ++ modelWord

theorem baseText_cons (q : Qualifier) (qualifiers : List Qualifier) (rest : List Char) :
    baseText (q :: qualifiers) ++ rest = q.name ++
      (q.beforeDot.text ++ '.' :: (q.afterDot.text ++ (baseText qualifiers ++ rest))) := by
  simp [baseText, Qualifier.text]

/-- A base starts with an identifier, and a dot follows it unless it is the name of the base
class. -/
theorem exists_baseText_eq (qualifiers : List Qualifier) {rest : List Char}
    (hrest : startsWord rest = false) :
    ∃ word more, baseText qualifiers ++ rest = word ++ more ∧ IsIdentifier word ∧
      startsWord more = false ∧
      (word = modelWord ∨ ∃ (g : Gap) (behind : List Char), more = g.text ++ '.' :: behind) := by
  cases qualifiers with
  | nil => exact ⟨modelWord, rest, rfl, isIdentifier_modelWord, hrest, .inl rfl⟩
  | cons q qualifiers =>
    exact ⟨q.name, _, baseText_cons q qualifiers rest, q.isIdentifier_name,
      startsWord_gap_cons q.beforeDot (by decide) _, .inr ⟨q.beforeDot, _, rfl⟩⟩

theorem skipBlanks_baseText (g : Gap) (qualifiers : List Qualifier) {rest : List Char}
    (hrest : startsWord rest = false) :
    skipBlanks (g.text ++ (baseText qualifiers ++ rest)) = baseText qualifiers ++ rest := by
  obtain ⟨word, more, htext, hword, -, -⟩ := exists_baseText_eq qualifiers hrest
  rw [htext, skipBlanks_gap_identifier g hword]

theorem afterModelWord_eq_some_iff {text rest : List Char} :
    afterModelWord text = some rest ↔ text = modelWord ++ rest ∧ startsWord rest = false := by
  simp only [afterModelWord, Option.bind_eq_bind, Option.bind_eq_some_iff, expectWord_eq_some_iff]
  constructor
  · rintro ⟨_, rfl, h⟩
    split at h
    · exact absurd h.symm (Option.some_ne_none _)
    · next hword =>
      obtain rfl := Option.some.inj h
      exact ⟨rfl, Bool.eq_false_iff.2 hword⟩
  · rintro ⟨rfl, hword⟩
    exact ⟨rest, rfl, if_neg (Bool.eq_false_iff.1 hword)⟩

theorem afterQualifier_append (q : Qualifier) (rest : List Char) :
    afterQualifier (q.name ++ (q.beforeDot.text ++ '.' :: rest)) = some (skipBlanks rest) := by
  simp only [afterQualifier, identifier?_append q.isIdentifier_name
    (startsWord_gap_cons q.beforeDot (show isWordChar '.' = false by decide) rest),
    expectToken_gap q.beforeDot (show isBlank '.' = false by decide), Option.bind_eq_bind,
    Option.bind_some]

theorem exists_of_afterQualifier {text rest : List Char} (h : afterQualifier text = some rest) :
    ∃ q : Qualifier, text = q.text ++ rest := by
  simp only [afterQualifier, Option.bind_eq_bind, Option.bind_eq_some_iff, Option.some.injEq,
    Prod.exists] at h
  obtain ⟨name, behind, hname, mid, hmid, rfl⟩ := h
  obtain ⟨beforeDot, rfl⟩ := eq_gap_append_of_expectToken hmid
  obtain ⟨afterDot, hafter⟩ := exists_gap_append_skipBlanks mid
  refine ⟨⟨name, beforeDot, afterDot, isIdentifier_of_identifier? hname⟩, ?_⟩
  calc text = name ++ (beforeDot.text ++ '.' :: mid) := eq_append_of_identifier? hname
    _ = name ++ (beforeDot.text ++ '.' :: (afterDot.text ++ skipBlanks mid)) := by rw [← hafter]
    _ = _ := by simp [Qualifier.text]

/-- A base is read, as far as one may be read from the text. -/
theorem isSome_afterBase (qualifiers : List Qualifier) {rest : List Char}
    (hrest : startsWord rest = false) :
    (afterBase (baseText qualifiers ++ rest)).isSome = true := by
  induction qualifiers with
  | nil =>
    have hmodel : afterModelWord (baseText [] ++ rest) = some rest :=
      afterModelWord_eq_some_iff.2 ⟨rfl, hrest⟩
    rw [afterBase]
    split <;> simp [hmodel]
  | cons q qualifiers ih =>
    have hqualifier := afterQualifier_append q (q.afterDot.text ++ (baseText qualifiers ++ rest))
    rw [skipBlanks_baseText q.afterDot qualifiers hrest, ← baseText_cons] at hqualifier
    rw [afterBase]
    split
    · next behind hbehind =>
      obtain rfl := Option.some.inj (hqualifier.symm.trans hbehind)
      rw [Option.isSome_or, ih, Bool.true_or]
    · next hnone => exact absurd (hqualifier.symm.trans hnone) (Option.some_ne_none _)

theorem exists_of_afterBase {text rest : List Char} (h : afterBase text = some rest) :
    ∃ qualifiers, text = baseText qualifiers ++ rest ∧ startsWord rest = false := by
  fun_induction afterBase text with
  | case1 text behind hbehind ih =>
    rcases Option.or_eq_some_iff.1 h with h | ⟨-, h⟩
    · obtain ⟨qualifiers, rfl, hrest⟩ := ih h
      obtain ⟨q, rfl⟩ := exists_of_afterQualifier hbehind
      exact ⟨q :: qualifiers, by simp [baseText], hrest⟩
    · exact ⟨[], afterModelWord_eq_some_iff.1 h⟩
  | case2 => exact ⟨[], afterModelWord_eq_some_iff.1 h⟩

/-! ### Headers -/

/-- The header of a model class as it is written. -/
structure ClassHeader where
  /-- White space between the keyword and the name. -/
  beforeName : Gap
  /-- The name of the class. -/
  name : List Char
  /-- White space behind the name. -/
  beforeExtends : Gap
  /-- White space in front of the base. -/
  beforeBase : Gap
  /-- The path in front of the name of the base class. -/
  qualifiers : List Qualifier
  isIdentifier_name : IsIdentifier name
  beforeName_ne_nil : beforeName.text ≠ []
  beforeExtends_ne_nil : beforeExtends.text ≠ []
  beforeBase_ne_nil : beforeBase.text ≠ []

namespace ClassHeader

variable (h : ClassHeader)

/-- The header as it is written. -/
def text : List Char :=
  classWord ++ h.beforeName.text ++ h.name ++ h.beforeExtends.text ++ extendsWord ++
    h.beforeBase.text ++ baseText h.qualifiers

/-- What stands behind the name, in front of a rest. -/
def behindName (rest : List Char) : List Char :=
  h.beforeExtends.text ++ (extendsWord ++ (h.beforeBase.text ++ (baseText h.qualifiers ++ rest)))

theorem text_append (rest : List Char) :
    h.text ++ rest = classWord ++ (h.beforeName.text ++ (h.name ++ h.behindName rest)) := by
  simp [text, behindName]

theorem startsWord_gap {g : Gap} (hne : g.text ≠ []) (rest : List Char) :
    startsWord (g.text ++ rest) = false := by
  rcases hg : g.text with - | ⟨c, more⟩
  · exact absurd hg hne
  · exact g.isWordChar_of_mem c (by rw [hg]; exact List.mem_cons_self)

theorem startsWord_behindName (rest : List Char) : startsWord (h.behindName rest) = false :=
  startsWord_gap h.beforeExtends_ne_nil _

/-- **A header is read with its name.** The path may be read further than it is written. -/
theorem exists_classHeader?_text {rest : List Char} (hrest : startsWord rest = false) :
    ∃ after, classHeader? (h.text ++ rest) = some (h.name, after) := by
  obtain ⟨after, hafter⟩ := Option.isSome_iff_exists.1 (isSome_afterBase h.qualifiers hrest)
  refine ⟨after, ?_⟩
  have hbase : expectBlanks (h.beforeBase.text ++ (baseText h.qualifiers ++ rest)) =
      some (baseText h.qualifiers ++ rest) := by
    rw [expectBlanks_gap h.beforeBase_ne_nil, skipBlanks_baseText h.beforeBase _ hrest]
  have hname := identifier?_append h.isIdentifier_name (h.startsWord_behindName rest)
  rw [behindName] at hname
  simp only [text_append, behindName, classHeader?, expectWord_append, hname, hbase, hafter,
    expectBlanks_gap_identifier h.beforeName_ne_nil h.isIdentifier_name,
    expectBlanks_gap_identifier h.beforeExtends_ne_nil isIdentifier_extendsWord,
    Option.bind_eq_bind, Option.bind_some]

end ClassHeader

/-- **What is read as a header is one.** -/
theorem exists_header_of_classHeader? {text name rest : List Char}
    (h : classHeader? text = some (name, rest)) :
    ∃ header : ClassHeader, header.name = name ∧ text = header.text ++ rest ∧
      startsWord rest = false := by
  simp only [classHeader?, Option.bind_eq_bind, Option.bind_eq_some_iff, Option.some.injEq,
    Prod.mk.injEq, Prod.exists] at h
  obtain ⟨r₁, h₁, r₂, h₂, n, r₃, h₃, r₄, h₄, r₅, h₅, r₆, h₆, r₇, h₇, rfl, rfl⟩ := h
  obtain ⟨beforeName, hname, rfl⟩ := exists_gap_of_expectBlanks h₂
  obtain ⟨beforeExtends, hextends, rfl⟩ := exists_gap_of_expectBlanks h₄
  obtain ⟨beforeBase, hbase, rfl⟩ := exists_gap_of_expectBlanks h₆
  obtain ⟨qualifiers, rfl, hrest⟩ := exists_of_afterBase h₇
  refine ⟨⟨beforeName, n, beforeExtends, beforeBase, qualifiers, isIdentifier_of_identifier? h₃,
    hname, hextends, hbase⟩, rfl, ?_, hrest⟩
  have hr₂ := eq_append_of_identifier? h₃
  rw [expectWord_eq_some_iff.1 h₅] at hr₂
  rw [expectWord_eq_some_iff.1 h₁, ClassHeader.text_append]
  exact congrArg (fun r ↦ classWord ++ (beforeName.text ++ r)) hr₂

/-! ### Where no header begins -/

/-- No header begins within the front part of a text; `afterWord` says whether a word goes on from
before it. -/
def HasNoHeader (rest : List Char) : (afterWord : Bool) → List Char → Prop
  | _, [] => True
  | afterWord, c :: front =>
    (afterWord = false → classHeader? (c :: (front ++ rest)) = none) ∧
      HasNoHeader rest (isWordChar c) front

section HasNoHeader

variable {front behind rest word : List Char} {afterWord : Bool}

theorem HasNoHeader.append (hfront : HasNoHeader (behind ++ rest) afterWord front)
    (hbehind : HasNoHeader rest (wordGoesOn afterWord front) behind) :
    HasNoHeader rest afterWord (front ++ behind) := by
  induction front generalizing afterWord with
  | nil => exact hbehind
  | cons c front ih =>
    obtain ⟨hhere, hfront⟩ := hfront
    refine ⟨fun hword ↦ ?_, ih hfront hbehind⟩
    rw [← hhere hword, ← List.append_assoc]
    rfl

/-- A header begins with a letter of its own. -/
theorem classHeader?_cons_of_ne {c : Char} (hc : c ≠ 'c') (text : List Char) :
    classHeader? (c :: text) = none := by
  rcases hread : classHeader? (c :: text) with - | ⟨name, after⟩
  · rfl
  · obtain ⟨header, -, htext, -⟩ := exists_header_of_classHeader? hread
    rw [header.text_append] at htext
    exact absurd (List.cons.inj htext).1 hc

theorem hasNoHeader_nonword (h : ∀ c ∈ front, isWordChar c = false) :
    HasNoHeader rest afterWord front := by
  induction front generalizing afterWord with
  | nil => trivial
  | cons c front ih =>
    refine ⟨fun _ ↦ classHeader?_cons_of_ne ?_ _, ih fun d hd ↦ h d (List.mem_cons_of_mem c hd)⟩
    rintro rfl
    exact absurd (h _ List.mem_cons_self) (by decide)

/-- Within a word, no header begins behind its first character. -/
theorem hasNoHeader_afterWord (h : ∀ c ∈ word, isWordChar c = true) :
    HasNoHeader rest true word := by
  induction word with
  | nil => trivial
  | cons c word ih =>
    refine ⟨fun hfalse ↦ absurd hfalse.symm Bool.false_ne_true, ?_⟩
    rw [h c List.mem_cons_self]
    exact ih fun d hd ↦ h d (List.mem_cons_of_mem c hd)

theorem hasNoHeader_word (h : ∀ c ∈ word, isWordChar c = true)
    (hread : classHeader? (word ++ rest) = none) : HasNoHeader rest afterWord word := by
  cases word with
  | nil => trivial
  | cons c word =>
    refine ⟨fun _ ↦ hread, ?_⟩
    rw [h c List.mem_cons_self]
    exact hasNoHeader_afterWord fun d hd ↦ h d (List.mem_cons_of_mem c hd)

/-- At a member of a path, in front of its dot, no header begins. -/
theorem classHeader?_member (hword : IsIdentifier word) (g : Gap) :
    classHeader? (word ++ (g.text ++ '.' :: rest)) = none := by
  rcases hread : classHeader? (word ++ (g.text ++ '.' :: rest)) with - | ⟨name, after⟩
  · rfl
  · obtain ⟨header, -, htext, -⟩ := exists_header_of_classHeader? hread
    rw [header.text_append] at htext
    obtain ⟨-, hbehind⟩ := eq_of_identifier hword isIdentifier_classWord
      (startsWord_gap_cons g (by decide) rest)
      (ClassHeader.startsWord_gap header.beforeName_ne_nil _) htext
    exact absurd hbehind (gap_dot_ne_gap_identifier header.isIdentifier_name)

/-- At the name of a class, no header begins. -/
theorem classHeader?_name (h : ClassHeader) (hrest : startsWord rest = false) :
    classHeader? (h.name ++ h.behindName rest) = none := by
  rcases hread : classHeader? (h.name ++ h.behindName rest) with - | ⟨name, after⟩
  · rfl
  · obtain ⟨header, -, htext, hafter⟩ := exists_header_of_classHeader? hread
    rw [header.text_append] at htext
    -- the name would be the keyword, and `extends` the name
    obtain ⟨-, hbehind⟩ := eq_of_identifier h.isIdentifier_name isIdentifier_classWord
      (h.startsWord_behindName rest)
      (ClassHeader.startsWord_gap header.beforeName_ne_nil _) htext
    obtain ⟨-, hbase⟩ := eq_of_gap_identifier isIdentifier_extendsWord header.isIdentifier_name
      (ClassHeader.startsWord_gap h.beforeBase_ne_nil _) (header.startsWord_behindName _) hbehind
    -- the base would start with `extends` and go on without a dot
    obtain ⟨word, more, hword, hidentifier, hmore, hend⟩ := exists_baseText_eq h.qualifiers hrest
    rw [hword] at hbase
    obtain ⟨rfl, rfl⟩ := eq_of_gap_identifier hidentifier isIdentifier_extendsWord hmore
      (ClassHeader.startsWord_gap header.beforeBase_ne_nil _) hbase
    obtain ⟨first, others, hother, hfirst, -, -⟩ := exists_baseText_eq header.qualifiers hafter
    rcases hend with hmodel | ⟨g, behind, hdot⟩
    · exact absurd hmodel (by decide)
    · rw [hother] at hdot
      exact absurd hdot.symm (gap_dot_ne_gap_identifier hfirst)

theorem hasNoHeader_gap (g : Gap) : HasNoHeader rest afterWord g.text :=
  hasNoHeader_nonword g.isWordChar_of_mem

/-- Within a base, no header begins. -/
theorem hasNoHeader_baseText (qualifiers : List Qualifier) :
    HasNoHeader rest afterWord (baseText qualifiers) := by
  induction qualifiers generalizing afterWord with
  | nil =>
    exact hasNoHeader_word isIdentifier_modelWord.isWordChar_of_mem
      (classHeader?_cons_of_ne (by decide) _)
  | cons q qualifiers ih =>
    have htext : baseText (q :: qualifiers) =
        q.name ++ (q.beforeDot.text ++ (['.'] ++ (q.afterDot.text ++ baseText qualifiers))) := by
      simpa using baseText_cons q qualifiers []
    rw [htext]
    refine .append (hasNoHeader_word q.isIdentifier_name.isWordChar_of_mem ?_)
      (.append (hasNoHeader_gap _) (.append (hasNoHeader_nonword ?_)
        (.append (hasNoHeader_gap _) ih)))
    · simpa using classHeader?_member q.isIdentifier_name q.beforeDot
    · exact List.forall_mem_singleton.2 (by decide)

end HasNoHeader

/-- **No header begins within another**, behind its first character. -/
theorem ClassHeader.exists_text_eq_cons (h : ClassHeader) {rest : List Char}
    (hrest : startsWord rest = false) :
    ∃ front, h.text = 'c' :: front ∧ HasNoHeader rest true front := by
  refine ⟨['l', 'a', 's', 's'] ++ (h.beforeName.text ++ (h.name ++ (h.beforeExtends.text ++
    (extendsWord ++ (h.beforeBase.text ++ baseText h.qualifiers))))), ?_, ?_⟩
  · simp [text, classWord]
  · refine .append (hasNoHeader_afterWord (List.all_eq_true.1 (by decide)))
      (.append (hasNoHeader_gap _) (.append ?_ (.append (hasNoHeader_gap _) (.append ?_
        (.append (hasNoHeader_gap _) (hasNoHeader_baseText _))))))
    · refine hasNoHeader_word h.isIdentifier_name.isWordChar_of_mem ?_
      simpa [behindName] using classHeader?_name h hrest
    · exact hasNoHeader_word isIdentifier_extendsWord.isWordChar_of_mem
        (classHeader?_cons_of_ne (by decide) _)

/-! ### The headers of a text -/

/-- A header with the name is read at a place of a text where no word goes on; `afterWord` says
whether one goes on from before the text. -/
def ReadsHeaderAt (afterWord : Bool) (text : List Char) (place : Nat) (name : List Char) : Prop :=
  wordGoesOn afterWord (text.take place) = false ∧
    ∃ rest, classHeader? (text.drop place) = some (name, rest)

theorem readsHeaderAt_append (afterWord : Bool) (front text : List Char) (place : Nat)
    (name : List Char) : ReadsHeaderAt afterWord (front ++ text) (front.length + place) name ↔
      ReadsHeaderAt (wordGoesOn afterWord front) text place name := by
  rw [ReadsHeaderAt, List.take_length_add_append, List.drop_length_add_append, wordGoesOn_append,
    ReadsHeaderAt]

/-- Headers are read behind the part of a text in which none begins. -/
theorem HasNoHeader.exists_eq_add {afterWord : Bool} {front rest name : List Char} {place : Nat}
    (hfront : HasNoHeader rest afterWord front)
    (h : ReadsHeaderAt afterWord (front ++ rest) place name) :
    ∃ k, place = front.length + k ∧ ReadsHeaderAt (wordGoesOn afterWord front) rest k name := by
  induction front generalizing afterWord place with
  | nil => exact ⟨place, (Nat.zero_add place).symm, h⟩
  | cons c front ih =>
    obtain ⟨hhere, hfront⟩ := hfront
    cases place with
    | zero =>
      obtain ⟨hword, after, hread⟩ := h
      exact absurd ((hhere hword).symm.trans hread) (Option.some_ne_none _).symm
    | succ place =>
      obtain ⟨k, rfl, hk⟩ := ih hfront h
      exact ⟨k, by simp only [List.length_cons]; omega, hk⟩

theorem ClassHeader.wordGoesOn_text (h : ClassHeader) (afterWord : Bool) :
    wordGoesOn afterWord h.text = true := by
  rw [text, baseText, ← List.append_assoc, wordGoesOn_append]
  rfl

/-- **The search for headers finds those that can be read**, and each of them. -/
theorem mem_classHeaders_iff_readsHeaderAt {position start : Nat} {afterWord : Bool}
    {text name : List Char} : (start, name) ∈ classHeaders position afterWord text ↔
      ∃ place, start = position + place ∧ ReadsHeaderAt afterWord text place name := by
  fun_induction classHeaders position afterWord text with
  | case1 position afterWord =>
    refine ⟨fun h ↦ absurd h List.not_mem_nil, ?_⟩
    rintro ⟨place, -, -, rest, hread⟩
    rw [List.drop_nil] at hread
    exact absurd hread.symm (Option.some_ne_none _)
  | case2 position afterWord c rest first after hread ih =>
    cases afterWord with
    | true => exact absurd hread.symm (Option.some_ne_none _)
    | false =>
      obtain ⟨header, rfl, htext, hafter⟩ := exists_header_of_classHeader? hread
      obtain ⟨front, hfront, hnone⟩ := header.exists_text_eq_cons hafter
      have hword : wordGoesOn true front = true := by
        have htext := header.wordGoesOn_text false
        rw [hfront] at htext
        exact htext
      rw [hfront, List.cons_append] at htext
      obtain ⟨rfl, rfl⟩ := List.cons.inj htext
      have hlength : (front ++ after).length + 1 - after.length = front.length + 1 := by
        rw [List.length_append]
        omega
      rw [hlength] at ih ⊢
      rw [List.mem_cons, ih, Prod.mk.injEq]
      constructor
      · rintro (⟨rfl, rfl⟩ | ⟨place, rfl, h⟩)
        · exact ⟨0, rfl, rfl, after, hread⟩
        · refine ⟨front.length + place + 1, by omega, ?_⟩
          exact (readsHeaderAt_append true front after place name).2 (by rwa [hword])
      · rintro ⟨place, rfl, h⟩
        cases place with
        | zero =>
          obtain ⟨-, behind, hbehind⟩ := h
          exact .inl ⟨rfl, congrArg Prod.fst (Option.some.inj (hbehind.symm.trans hread))⟩
        | succ place =>
          -- within the header nothing is read, so the place is behind it
          obtain ⟨k, rfl, hk⟩ := hnone.exists_eq_add h
          exact .inr ⟨k, by omega, by rwa [hword] at hk⟩
  | case3 position afterWord c rest hread ih =>
    rw [ih]
    constructor
    · rintro ⟨place, rfl, h⟩
      exact ⟨place + 1, by omega, h⟩
    · rintro ⟨place, rfl, h⟩
      cases place with
      | zero =>
        obtain ⟨rfl, behind, hbehind⟩ := h
        exact absurd (hread.symm.trans hbehind) (Option.some_ne_none _).symm
      | succ place => exact ⟨place, by omega, h⟩

theorem pairwise_classHeaders (position : Nat) (afterWord : Bool) (text : List Char) :
    (classHeaders position afterWord text).Pairwise fun x y ↦ x.1 < y.1 := by
  fun_induction classHeaders position afterWord text with
  | case1 => exact .nil
  | case2 position afterWord c rest first after hread ih =>
    refine .cons (fun y hy ↦ ?_) ih
    obtain ⟨place, hplace, -⟩ := mem_classHeaders_iff_readsHeaderAt.1 hy
    have hlt : after.length < rest.length + 1 := by
      cases afterWord with
      | true => exact absurd hread.symm (Option.some_ne_none _)
      | false => exact length_lt_of_classHeader? hread
    show position < y.1
    omega
  | case3 position afterWord c rest hread ih => exact ih

/-- A header stands at a place of a text, and no word goes on from before it or behind it. -/
structure IsHeaderAt (text : List Char) (place : Nat) (h : ClassHeader) : Prop where
  isWordChar_before : ∀ c ∈ (text.take place).getLast?, isWordChar c = false
  exists_behind : ∃ rest, text.drop place = h.text ++ rest ∧ startsWord rest = false

theorem IsHeaderAt.readsHeaderAt {text : List Char} {place : Nat} {h : ClassHeader}
    (hat : IsHeaderAt text place h) : ReadsHeaderAt false text place h.name := by
  obtain ⟨rest, hdrop, hrest⟩ := hat.exists_behind
  obtain ⟨after, hread⟩ := h.exists_classHeader?_text hrest
  exact ⟨(wordGoesOn_eq_false_iff _).2 hat.isWordChar_before, after, hdrop ▸ hread⟩

/-- **The headers that the search finds are the headers of the text.** -/
theorem mem_classHeaders_iff {text name : List Char} {start : Nat} :
    (start, name) ∈ classHeaders 0 false text ↔ ∃ h, IsHeaderAt text start h ∧ h.name = name := by
  rw [mem_classHeaders_iff_readsHeaderAt]
  constructor
  · rintro ⟨place, rfl, hword, rest, hread⟩
    obtain ⟨h, rfl, hdrop, hrest⟩ := exists_header_of_classHeader? hread
    rw [Nat.zero_add]
    exact ⟨h, ⟨(wordGoesOn_eq_false_iff _).1 hword, rest, hdrop, hrest⟩, rfl⟩
  · rintro ⟨h, hat, rfl⟩
    exact ⟨start, (Nat.zero_add start).symm, hat.readsHeaderAt⟩

/-- At one place stands the header of one class. -/
theorem IsHeaderAt.name_eq {text : List Char} {place : Nat} {h h' : ClassHeader}
    (hat : IsHeaderAt text place h) (hat' : IsHeaderAt text place h') : h.name = h'.name := by
  obtain ⟨-, rest, hread⟩ := hat.readsHeaderAt
  obtain ⟨-, rest', hread'⟩ := hat'.readsHeaderAt
  exact congrArg Prod.fst (Option.some.inj (hread.symm.trans hread'))

/-! ### The class of a place -/

/-- The header that starts last before a place. -/
structure IsLastHeaderBefore (text : List Char) (place start : Nat) (h : ClassHeader) : Prop where
  isHeaderAt : IsHeaderAt text start h
  lt : start < place
  le_of_lt : ∀ start' h', IsHeaderAt text start' h' → start' < place → start' ≤ start

/-- **A place belongs to the class with the last header before it.** -/
theorem exists_isLastHeaderBefore {text name : List Char} {place : Nat}
    (h : enclosingClass (classHeaders 0 false text) place = some name) :
    ∃ start header, IsLastHeaderBefore text place start header ∧ header.name = name := by
  obtain ⟨⟨start, found⟩, hfound, rfl⟩ := Option.map_eq_some_iff.1 h
  obtain ⟨hlt, behind, front, hsplit, hbehind⟩ := List.find?_eq_some_iff_append.1 hfound
  obtain ⟨header, hat, rfl⟩ := mem_classHeaders_iff.1
    (List.mem_reverse.1 (List.mem_of_find?_eq_some hfound))
  refine ⟨start, header, ⟨hat, of_decide_eq_true hlt, fun start' h' hat' hlt' ↦ ?_⟩, rfl⟩
  -- the headers stand in order, and those behind the one that is found start at the place or later
  have hmem : (start', h'.name) ∈ (classHeaders 0 false text).reverse :=
    List.mem_reverse.2 (mem_classHeaders_iff.2 ⟨h', hat', rfl⟩)
  have hsorted := List.pairwise_reverse.2 (pairwise_classHeaders 0 false text)
  rw [hsplit] at hmem hsorted
  rcases List.mem_append.1 hmem with hmem | hmem
  · have hnot := hbehind _ hmem
    simp only [hlt', decide_true, Bool.not_true] at hnot
    exact absurd hnot Bool.false_ne_true
  · rcases List.mem_cons.1 hmem with heq | hmem
    · exact Nat.le_of_eq (congrArg Prod.fst heq)
    · exact Nat.le_of_lt ((List.pairwise_cons.1 (List.pairwise_append.1 hsorted).2.1).1 _ hmem)

/-- A place belongs to no class if no header starts before it. -/
theorem not_lt_of_enclosingClass_eq_none {text : List Char} {place : Nat}
    (h : enclosingClass (classHeaders 0 false text) place = none) {start : Nat}
    {header : ClassHeader} (hat : IsHeaderAt text start header) : ¬start < place := by
  intro hlt
  have hnone := List.find?_eq_none.1 (Option.map_eq_none_iff.1 h) (start, header.name)
    (List.mem_reverse.2 (mem_classHeaders_iff.2 ⟨header, hat, rfl⟩))
  exact hnone (decide_eq_true hlt)

end SchemaDiagram.Source
