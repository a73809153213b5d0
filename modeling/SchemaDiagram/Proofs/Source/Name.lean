import SchemaDiagram.Proofs.Source.Association
import SchemaDiagram.Proofs.Source.Attribute
import SchemaDiagram.Source.Definition

/-!
# The names and values read from any text

A text need not be written with care to be read. Whatever stands in it, the models of its
associations are called by identifiers (`isIdentifier_source`, `isIdentifier_target`), the values of
their modifiers can stand between quotes (`isQuotable_modifier?`), and the fields of its model are
called by words (`isWord_name_of_extractModel`).

All of it comes from the readers at the leaves. A name is cut off by a reader for identifiers or
words and reaches the result as it was cut off: choosing the last member of a path, the enclosing
class of a call, or the leftmost answer of a search only chooses among answers of those readers
(`exists_of_findBefore`, `mem_classHeaders`, `mem_associationCalls`).
-/

namespace SchemaDiagram

namespace Text

/-- A word: word characters only, and at least one. -/
structure IsWord (name : List Char) : Prop where
  ne_nil : name ≠ []
  isWordChar_of_mem : ∀ c ∈ name, isWordChar c = true

/-- What can stand between two quotes and be read back: it has at least one character, and no quote
of any kind. -/
structure IsQuotable (value : List Char) : Prop where
  ne_nil : value ≠ []
  isQuote_of_mem : ∀ c ∈ value, isQuote c = false

theorem IsIdentifier.isWord {name : List Char} (h : IsIdentifier name) : IsWord name := by
  obtain ⟨c, rest, rfl, -⟩ := h.start
  exact ⟨List.cons_ne_nil c rest, h.isWordChar_of_mem⟩

theorem IsWord.isQuotable {name : List Char} (h : IsWord name) : IsQuotable name :=
  ⟨h.ne_nil, fun c hc ↦ isQuote_of_isWordChar (h.isWordChar_of_mem c hc)⟩

/-! ### What the readers cut off -/

theorem isWordChar_of_mem_takeWhile {text : List Char} :
    ∀ c ∈ text.takeWhile isWordChar, isWordChar c = true := fun c hc ↦
  List.all_eq_true.1 List.all_takeWhile c hc

theorem isIdentifier_of_identifier? {text name rest : List Char}
    (h : identifier? text = some (name, rest)) : IsIdentifier name := by
  cases text with
  | nil => simp [identifier?] at h
  | cons c text =>
    rw [identifier?] at h
    split at h
    · next hstart =>
      obtain ⟨rfl, -⟩ := Prod.mk.inj (Option.some.inj h)
      refine ⟨⟨c, text.takeWhile isWordChar, rfl, hstart⟩, fun d hd ↦ ?_⟩
      rcases List.mem_cons.1 hd with rfl | hd
      · exact isWordChar_of_isIdentifierStart hstart
      · exact isWordChar_of_mem_takeWhile d hd
    · exact absurd h.symm (Option.some_ne_none _)

theorem isIdentifier_of_mem_dottedTail {text name : List Char} (h : name ∈ (dottedTail text).1) :
    IsIdentifier name := by
  fun_induction dottedTail text with
  | case1 text first rest hread tail ih =>
    rcases List.mem_cons.1 h with rfl | htail
    · obtain ⟨mid, -, hname⟩ := Option.bind_eq_some_iff.1 hread
      exact isIdentifier_of_identifier? hname
    · exact ih htail
  | case2 => exact absurd h List.not_mem_nil

/-- The last member of a path is an identifier, as all members are. -/
theorem isIdentifier_of_dottedPath? {text name rest : List Char}
    (h : dottedPath? text = some (name, rest)) : IsIdentifier name := by
  obtain ⟨⟨first, mid⟩, hfirst, heq⟩ := Option.map_eq_some_iff.1 h
  obtain ⟨rfl, -⟩ := Prod.mk.inj heq
  rcases List.mem_cons.1 (List.getLastD_mem_cons (l := (dottedTail mid).1) (a := first)) with
    hlast | hlast
  · rw [hlast]
    exact isIdentifier_of_identifier? hfirst
  · exact isIdentifier_of_mem_dottedTail hlast

theorem isWord_of_word? {text name rest : List Char} (h : word? text = some (name, rest)) :
    IsWord name := by
  rw [word?] at h
  split at h
  · next hstart =>
    obtain ⟨rfl, -⟩ := Prod.mk.inj (Option.some.inj h)
    refine ⟨?_, isWordChar_of_mem_takeWhile⟩
    cases text with
    | nil => exact absurd hstart Bool.false_ne_true
    | cons c text =>
      rw [startsWord_cons] at hstart
      simp [hstart]
  · exact absurd h.symm (Option.some_ne_none _)

/-- A search answers only what the reader answers somewhere. -/
theorem exists_of_findBefore {α : Type} {stop : Char → Bool} {read : List Char → Option α}
    {afterWord : Bool} {text : List Char} {answer : α}
    (h : findBefore stop read afterWord text = some answer) :
    ∃ place, read place = some answer := by
  induction text generalizing afterWord with
  | nil => exact absurd h.symm (Option.some_ne_none _)
  | cons c text ih =>
    rw [findBefore] at h
    split at h
    · next found hfound =>
      cases h
      cases afterWord with
      | true => exact absurd hfound.symm (Option.some_ne_none _)
      | false => exact ⟨c :: text, hfound⟩
    · split at h
      · exact absurd h.symm (Option.some_ne_none _)
      · exact ih h

end Text

namespace Source

open Text

/-! ### Modifiers -/

theorem isQuotable_of_quotedValue? {text value : List Char} (h : quotedValue? text = some value) :
    IsQuotable value := by
  cases text with
  | nil => exact absurd h.symm (Option.some_ne_none _)
  | cons c text =>
    simp only [quotedValue?] at h
    split at h
    · split at h
      · exact absurd h.symm (Option.some_ne_none _)
      · next hne =>
        cases h
        simp only [Bool.or_eq_true, not_or, List.isEmpty_iff] at hne
        refine ⟨hne.1, fun d hd ↦ ?_⟩
        simpa using List.all_eq_true.1 (List.all_takeWhile (p := fun d ↦ !isQuote d)) d hd
    · exact absurd h.symm (Option.some_ne_none _)

theorem isQuotable_of_columnName? {text value : List Char} (h : columnName? text = some value) :
    IsQuotable value := by
  rw [columnName?.eq_def] at h
  split at h
  · obtain ⟨place, hplace⟩ := exists_of_findBefore h
    obtain ⟨rest, -, hvalue⟩ := Option.bind_eq_some_iff.1 hplace
    exact isQuotable_of_quotedValue? hvalue
  · exact isQuotable_of_quotedValue? h

theorem ModifierKey.isQuotable_of_readValue? (key : ModifierKey) {text value : List Char}
    (h : key.readValue? text = some value) : IsQuotable value := by
  cases key with
  | foreignKey => exact isQuotable_of_columnName? h
  | through =>
    rcases Option.or_eq_some_iff.1 h with h | ⟨-, h⟩
    · exact isQuotable_of_quotedValue? h
    · obtain ⟨⟨name, rest⟩, hpath, rfl⟩ := Option.map_eq_some_iff.1 h
      exact (isIdentifier_of_dottedPath? hpath).isWord.isQuotable
  | sourceKey => exact isQuotable_of_quotedValue? h
  | targetKey => exact isQuotable_of_quotedValue? h
  | aliasName => exact isQuotable_of_quotedValue? h

theorem ModifierKey.isQuotable_of_read? (key : ModifierKey) {options value : List Char}
    (h : key.read? options = some value) : IsQuotable value := by
  obtain ⟨place, hplace⟩ := exists_of_findBefore h
  obtain ⟨rest, -, hvalue⟩ := Option.bind_eq_some_iff.1 hplace
  exact key.isQuotable_of_readValue? hvalue

/-! ### Calls and classes -/

/-- A class that is found has its header somewhere in the text. -/
theorem mem_classHeaders {position start : Nat} {afterWord : Bool} {text name : List Char}
    (h : (start, name) ∈ classHeaders position afterWord text) :
    ∃ place rest, classHeader? place = some (name, rest) := by
  fun_induction classHeaders position afterWord text with
  | case1 => exact absurd h List.not_mem_nil
  | case2 position afterWord c rest first after hread ih =>
    rcases List.mem_cons.1 h with heq | hmem
    · obtain ⟨-, rfl⟩ := Prod.mk.inj heq
      cases afterWord with
      | true => exact absurd hread.symm (Option.some_ne_none _)
      | false => exact ⟨c :: rest, after, hread⟩
    · exact ih hmem
  | case3 position afterWord c rest hread ih => exact ih h

theorem isIdentifier_of_classHeader? {text name rest : List Char}
    (h : classHeader? text = some (name, rest)) : IsIdentifier name := by
  simp only [classHeader?, Option.bind_eq_bind, Option.bind_eq_some_iff, Option.some.injEq,
    Prod.mk.injEq, Prod.exists] at h
  obtain ⟨_, _, _, _, found, _, hname, _, _, _, _, _, _, _, _, rfl, _⟩ := h
  exact isIdentifier_of_identifier? hname

/-- A call that is found stands somewhere in the text. -/
theorem mem_associationCalls {position start : Nat} {text : List Char} {call : AssociationCall}
    (h : (start, call) ∈ associationCalls position text) :
    ∃ place rest, associationCall? place = some (call, rest) := by
  fun_induction associationCalls position text with
  | case1 => exact absurd h List.not_mem_nil
  | case2 position c rest first after hread ih =>
    rcases List.mem_cons.1 h with heq | hmem
    · obtain ⟨-, rfl⟩ := Prod.mk.inj heq
      exact ⟨c :: rest, after, hread⟩
    · exact ih hmem
  | case3 position c rest hread ih => exact ih h

/-- A call is made on an identifier and leads to one. -/
theorem isIdentifier_of_associationCall? {text rest : List Char} {call : AssociationCall}
    (h : associationCall? text = some (call, rest)) :
    IsIdentifier call.receiver ∧ IsIdentifier call.target := by
  simp only [associationCall?, Option.bind_eq_bind, Option.bind_eq_some_iff, Option.some.injEq,
    Prod.mk.injEq, Prod.exists] at h
  obtain ⟨receiver, _, hreceiver, _, _, _, _, _, target, _, htarget, _, _, _, rfl, _⟩ := h
  exact ⟨isIdentifier_of_identifier? hreceiver, isIdentifier_of_dottedPath? htarget⟩

/-- Where a class stands in for `this`, its name takes the place of another identifier. -/
theorem isIdentifier_resolveReceiver {text receiver : List Char} (position : Nat)
    (h : IsIdentifier receiver) :
    IsIdentifier (resolveReceiver (classHeaders 0 false text) position receiver) := by
  unfold resolveReceiver
  split
  · rcases hclass : enclosingClass (classHeaders 0 false text) position with - | name
    · exact h
    · obtain ⟨⟨start, found⟩, hfind, rfl⟩ := Option.map_eq_some_iff.1 hclass
      have hmem : (start, found) ∈ classHeaders 0 false text :=
        List.mem_reverse.1 (List.mem_of_find?_eq_some hfind)
      obtain ⟨place, rest, hheader⟩ := mem_classHeaders hmem
      exact isIdentifier_of_classHeader? hheader
  · exact h

/-! ### Associations -/

section Associations

variable {text : String} {a : Association}

/-- A declared association comes from a call in the text. -/
theorem mem_extractAssociations (h : a ∈ extractAssociations text) :
    ∃ position call place rest, associationCall? place = some (call, rest) ∧
      a = declaration (classHeaders 0 false text.toList) position call := by
  obtain ⟨⟨position, call⟩, hmem, rfl⟩ := List.mem_map.1 h
  obtain ⟨place, rest, hcall⟩ := mem_associationCalls hmem
  exact ⟨position, call, place, rest, hcall, rfl⟩

theorem isIdentifier_source (h : a ∈ extractAssociations text) : IsIdentifier a.source.toList := by
  obtain ⟨position, call, place, rest, hcall, rfl⟩ := mem_extractAssociations h
  rw [declaration, String.toList_ofList]
  exact isIdentifier_resolveReceiver position (isIdentifier_of_associationCall? hcall).1

theorem isIdentifier_target (h : a ∈ extractAssociations text) : IsIdentifier a.target.toList := by
  obtain ⟨position, call, place, rest, hcall, rfl⟩ := mem_extractAssociations h
  rw [declaration, String.toList_ofList]
  exact (isIdentifier_of_associationCall? hcall).2

theorem isQuotable_modifier? (h : a ∈ extractAssociations text) {key : ModifierKey} {value : String}
    (hvalue : modifier? a key = some value) : IsQuotable value.toList := by
  obtain ⟨position, call, place, rest, hcall, rfl⟩ := mem_extractAssociations h
  rw [modifier?_declaration] at hvalue
  obtain ⟨read, hread, rfl⟩ := Option.map_eq_some_iff.1 hvalue
  rw [String.toList_ofList]
  exact key.isQuotable_of_read? hread

end Associations

/-! ### Fields -/

theorem isWord_of_entry? {part name value : List Char} (h : entry? part = some (name, value)) :
    IsWord name := by
  unfold entry? at h
  simp only [Option.bind_eq_bind, Option.bind_eq_some_iff, Option.some.injEq, Prod.mk.injEq,
    Prod.exists] at h
  obtain ⟨found, _, hword, _, _, rfl, _⟩ := h
  exact isWord_of_word? hword

theorem isWord_name_of_readAttributes {block : List Char} {f : Field}
    (h : f ∈ readAttributes block) : IsWord f.name.toList := by
  obtain ⟨⟨name, value⟩, hmem, rfl⟩ := List.mem_map.1 h
  obtain ⟨part, -, hentry⟩ := List.mem_filterMap.1 hmem
  rw [name_readField, String.toList_ofList]
  exact isWord_of_entry? hentry

theorem isWord_name_of_readDefinition {text : List Char} {m : Model} {f : Field}
    (hmodel : readDefinition text = some m) (hfield : f ∈ m.fields) : IsWord f.name.toList := by
  simp only [readDefinition, Option.bind_eq_bind, Option.bind_eq_some_iff, Prod.exists] at hmodel
  obtain ⟨_, _, _, _, name, _, _, rest, _, hblock⟩ := hmodel
  split at hblock
  · obtain ⟨⟨block, behind⟩, -, hread⟩ := Option.bind_eq_some_iff.1 hblock
    cases hread
    exact isWord_name_of_readAttributes hfield
  · exact absurd hblock.symm (Option.some_ne_none _)

theorem isWord_name_of_extractModel {text : String} {m : Model} {f : Field}
    (hmodel : extractModel text = some m) (hfield : f ∈ m.fields) : IsWord f.name.toList := by
  obtain ⟨place, hplace⟩ := exists_of_findBefore hmodel
  obtain ⟨rest, -, hread⟩ := Option.bind_eq_some_iff.1 hplace
  exact isWord_name_of_readDefinition hread hfield

end Source

end SchemaDiagram
