import Mathlib.Data.List.TakeWhile
import SchemaDiagram.Proofs.Report.WellFormed
import SchemaDiagram.Proofs.Source.Definition
import SchemaDiagram.Proofs.Text.Offset
import SchemaDiagram.Source.Definition

/-!
# Reading models by byte offsets

Here models and attribute blocks are read with places given by byte offsets: behind a closed angle
bracket, around a name in quotes, at the end of a block, at commas, and two bytes before the end of
a name. No cut falls within a character and no count goes below zero, whatever the text is, and what
is read is what is read without offsets (`reads_without_fault`).

## What the readers rest on

* Each place is the end of a front part of the text, or the next offset behind a bracket or a quote,
  which takes one byte (`sliceFrom_append_cons`).
* The count of angle brackets starts with the bracket that opens the type arguments, and the reader
  stops when the count is zero. So it is positive wherever a bracket is closed (`closeAngle_eq`).
* Two bytes before the end of a name need not be a place. Where they are none, one of the last two
  characters takes more than one byte, and the name does not end in the two letters
  (`endsInId_iff_sliceFrom`).
-/

namespace SchemaDiagram.Source.Offset

open String (utf8Len)
open Text Text.Offset

/-! ### Type arguments and names -/

/-- The text after the angle bracket at which no bracket is open. `depth` counts the open brackets,
and the text is read up to the offset `index`. -/
def closeAngle (text : List Char) (depth index : Nat) :
    List Char → Except Fault (Option (List Char))
  | [] => .ok none
  | c :: rest => do
    if c = '<' then closeAngle text (depth + 1) (index + c.utf8Size) rest
    else if c = '>' then
      let depth ← minus depth 1
      if depth = 0 then return some (← sliceFrom text (index + 1))
      else closeAngle text depth (index + c.utf8Size) rest
    else closeAngle text depth (index + c.utf8Size) rest

/-- The text after the type arguments at its front. -/
def skipTypeArguments (text : List Char) : Except Fault (Option (List Char)) :=
  if text.head? = some '<' then closeAngle text 0 0 text else .ok (some text)

/-- The name between two quotes, and the text after it. Both are cut out before it is seen whether
the name is empty. -/
def quotedName? (text : List Char) : Except Fault (Option (List Char × List Char)) :=
  match text.head?.filter isQuote with
  | none => .ok none
  | some quote => do
    let body ← sliceFrom text 1
    match offsetOf? quote body with
    | none => return none
    | some stop =>
      let name ← slice body 0 stop
      let after ← sliceFrom body (stop + 1)
      return if name.isEmpty then none else some (name, after)

/-- With a bracket open, the reader finds where it is closed, and lowers no count of zero. -/
theorem closeAngle_eq (front rest : List Char) (inner : Nat) :
    closeAngle (front ++ rest) (inner + 1) (utf8Len front) rest =
      .ok (Source.closeAngle inner rest) := by
  induction rest generalizing front inner with
  | nil => rfl
  | cons c rest ih =>
    have hgo (depth : Nat) : closeAngle (front ++ c :: rest) (depth + 1)
        (utf8Len front + c.utf8Size) rest = .ok (Source.closeAngle depth rest) := by
      have h := ih (front ++ [c]) depth
      simpa using h
    rw [closeAngle]
    by_cases hopen : c = '<'
    · subst hopen
      rw [if_pos rfl, closeAngle_opening, hgo]
    · by_cases hclose : c = '>'
      · subst hclose
        rw [if_neg hopen, if_pos rfl, minus_add]
        cases inner with
        | zero =>
          show (do return some (← sliceFrom _ _)) = _
          rw [sliceFrom_append_cons (by decide)]
          rfl
        | succ inner =>
          rw [closeAngle_closing]
          exact hgo inner
      · rw [if_neg hopen, if_neg hclose, closeAngle_other inner hopen hclose, hgo]

theorem skipTypeArguments_eq (text : List Char) :
    skipTypeArguments text = .ok (Source.skipTypeArguments text) := by
  unfold skipTypeArguments
  split
  · next hopen =>
    obtain ⟨rest, rfl⟩ := List.head?_eq_some_iff.1 hopen
    exact closeAngle_eq ['<'] rest 0
  · next hopen =>
    rw [Source.skipTypeArguments.eq_2]
    rintro rest rfl
    exact hopen rfl

theorem utf8Size_of_isQuote {c : Char} (h : isQuote c = true) : c.utf8Size = 1 := by
  rcases eq_of_isQuote h with rfl | rfl | rfl <;> decide

/-- Where the second quote is missing there is no name, and otherwise both cuts are at quotes. -/
theorem quotedName?_eq (text : List Char) : quotedName? text = .ok (Source.quotedName? text) := by
  cases text with
  | nil => rfl
  | cons quote body =>
    by_cases hquote : isQuote quote = true
    · have hone := utf8Size_of_isQuote hquote
      have hhead : (quote :: body).head?.filter isQuote = some quote := by
        simp [Option.filter, hquote]
      have hbody : sliceFrom (quote :: body) 1 = .ok body := by
        simpa using sliceFrom_append_cons hone [] body
      simp only [quotedName?, hhead, hbody, Source.quotedName?, hquote, if_true, bind, Except.bind]
      by_cases hmem : quote ∈ body
      · obtain ⟨name, after, rfl, hname⟩ := List.eq_append_cons_of_mem hmem
        have hstop : offsetOf? quote (name ++ quote :: after) = some (utf8Len name) := by
          simp [offsetOf?_append hname, offsetOf?]
        obtain ⟨htake, hdrop⟩ := span_ne hname after
        simp only [hstop, htake, hdrop, slice_zero_append, sliceFrom_append_cons hone]
        rfl
      · have hdrop : body.dropWhile (· != quote) = [] :=
          List.dropWhile_eq_nil_iff.2 fun c hc ↦ bne_iff_ne.2 fun heq ↦ hmem (heq ▸ hc)
        rw [offsetOf?_eq_none hmem, hdrop]
        rfl
    · simp [quotedName?, Source.quotedName?, Option.filter, hquote]

/-! ### Fields -/

/-- Whether the last two bytes of a name are the letters `id`, in either case. Where a name cannot
be cut in front of them they are not. -/
def endsInId (name : List Char) : Except Fault Bool := do
  if 2 ≤ utf8Len name then
    let start ← minus (utf8Len name) 2
    return (sliceFrom name start).toOption.any fun ending ↦ ending.map Char.toLower = ['i', 'd']
  else return false

/-- A field, and whether it is a foreign key. -/
def withKey (f : Field) : Field × Bool := (f, f.foreignKey)

/-- A new field, for which the end of the name is looked at unless it is the primary key. -/
def makeField (f : Field) : Except Fault (Field × Bool) := do
  if f.primaryKey then return (f, false)
  else return (f, ← endsInId f.name.toList)

theorem toNat_toLower (c : Char) :
    c.toLower.toNat = if 65 ≤ c.toNat ∧ c.toNat ≤ 90 then c.toNat + 32 else c.toNat := by
  unfold Char.toLower
  split
  · next h =>
    have hupper : 65 ≤ c.toNat ∧ c.toNat ≤ 90 := h
    have hsum : (c.val + ('a'.val - 'A'.val)).toNat = (c.toNat + 32) % 2 ^ 32 :=
      UInt32.toNat_add ..
    rw [if_pos hupper]
    exact hsum.trans (Nat.mod_eq_of_lt (by omega))
  · next h => rw [if_neg (show ¬(65 ≤ c.toNat ∧ c.toNat ≤ 90) from h)]

/-- Only an ASCII letter becomes an ASCII letter in lower case. -/
theorem toLower_eq_iff {lower upper : Char} (hcase : lower.toNat = upper.toNat + 32)
    (hupper : 65 ≤ upper.toNat ∧ upper.toNat ≤ 90) (c : Char) :
    c.toLower = lower ↔ c = lower ∨ c = upper := by
  rw [← Char.toNat_inj, ← Char.toNat_inj, ← Char.toNat_inj, toNat_toLower]
  split <;> omega

theorem map_toLower_eq_iff {ending : List Char} :
    ending.map Char.toLower = ['i', 'd'] ↔
      ∃ i d, ending = [i, d] ∧ (i = 'i' ∨ i = 'I') ∧ (d = 'd' ∨ d = 'D') := by
  have hi (c : Char) : c.toLower = 'i' ↔ c = 'i' ∨ c = 'I' := toLower_eq_iff rfl (by decide) c
  have hd (c : Char) : c.toLower = 'd' ↔ c = 'd' ∨ c = 'D' := toLower_eq_iff rfl (by decide) c
  constructor
  · intro h
    obtain ⟨i, rest, rfl, hfirst, hrest⟩ := List.map_eq_cons_iff.1 h
    obtain ⟨d, rest, rfl, hsecond, hnil⟩ := List.map_eq_cons_iff.1 hrest
    obtain rfl := List.map_eq_nil_iff.1 hnil
    exact ⟨i, d, rfl, (hi i).1 hfirst, (hd d).1 hsecond⟩
  · rintro ⟨i, d, rfl, hfirst, hsecond⟩
    rw [List.map_cons, List.map_cons, (hi i).2 hfirst, (hd d).2 hsecond, List.map_nil]

/-- The last two bytes are cut off exactly if a front part stands before them. -/
theorem sliceFrom_sub_two_iff {name ending : List Char} (h : 2 ≤ utf8Len name) :
    sliceFrom name (utf8Len name - 2) = .ok ending ↔
      utf8Len ending = 2 ∧ ∃ front, name = front ++ ending := by
  rw [sliceFrom, slice_eq_ok_iff]
  constructor
  · rintro ⟨front, back, rfl, hfront, hending⟩
    simp only [String.utf8Len_append] at h hfront hending
    have hback : back = [] := String.utf8Len_eq_zero.1 (by omega)
    exact ⟨by omega, front, by simp [hback]⟩
  · rintro ⟨hending, front, rfl⟩
    simp only [String.utf8Len_append] at h ⊢
    exact ⟨front, [], by simp, by omega, by omega⟩

/-- A name ends in the two letters exactly if its last two bytes can be cut off and are them. -/
theorem endsInId_iff_sliceFrom {name : String} :
    SchemaDiagram.endsInId name = true ↔ 2 ≤ utf8Len name.toList ∧ ∃ ending,
      sliceFrom name.toList (utf8Len name.toList - 2) = .ok ending ∧
        ending.map Char.toLower = ['i', 'd'] := by
  rw [endsInId_iff]
  constructor
  · rintro ⟨front, i, d, hname, hi, hd⟩
    have htwo : utf8Len [i, d] = 2 := by
      rcases hi with rfl | rfl <;> rcases hd with rfl | rfl <;> decide
    have hle : 2 ≤ utf8Len name.toList := by
      rw [hname, String.utf8Len_append]
      omega
    exact ⟨hle, [i, d], (sliceFrom_sub_two_iff hle).2 ⟨htwo, front, hname⟩,
      map_toLower_eq_iff.2 ⟨i, d, rfl, hi, hd⟩⟩
  · rintro ⟨hle, ending, hcut, hending⟩
    obtain ⟨-, front, hname⟩ := (sliceFrom_sub_two_iff hle).1 hcut
    obtain ⟨i, d, rfl, hi, hd⟩ := map_toLower_eq_iff.1 hending
    exact ⟨front, i, d, hname, hi, hd⟩

theorem endsInId_eq (name : String) :
    endsInId name.toList = .ok (SchemaDiagram.endsInId name) := by
  rw [endsInId]
  by_cases hle : 2 ≤ utf8Len name.toList
  · have hminus : minus (utf8Len name.toList) 2 = .ok (utf8Len name.toList - 2) := if_pos hle
    rw [if_pos hle, hminus]
    refine congrArg Except.ok (Bool.eq_iff_iff.2 ?_)
    rw [endsInId_iff_sliceFrom, and_iff_right hle, Option.any_eq_true]
    cases sliceFrom name.toList (utf8Len name.toList - 2) <;> simp [Except.toOption]
  · have hfalse : SchemaDiagram.endsInId name = false :=
      Bool.eq_false_iff.2 fun htrue ↦ hle (endsInId_iff_sliceFrom.1 htrue).1
    rw [if_neg hle, hfalse]
    rfl

-- the place two bytes before the end lies within the first character
example : endsInId ['é', 'd'] = .ok false := by decide +kernel

theorem makeField_eq (f : Field) : makeField f = .ok (withKey f) := by
  rw [makeField, withKey, Field.foreignKey, endsInId_eq]
  cases f.primaryKey <;> rfl

/-! ### Attributes -/

/-- The entries of an object, from the text between its braces. -/
def entries (body : List Char) : Except Fault (List (List Char × List Char)) := do
  return (← splitTopLevel body).filterMap entry?

/-- The field that an entry describes. -/
def readField (name value : List Char) : Except Fault (Field × Bool) := do
  match betweenBraces? value with
  | some body =>
    let properties ← entries body
    makeField (properties.foldl applyProperty { name := String.ofList name, type := .unknown })
  | none => makeField { name := String.ofList name, type := readType value }

/-- The fields of an attribute block, which may stand in braces. -/
def readAttributes (block : List Char) : Except Fault (List (Field × Bool)) := do
  (← entries ((betweenBraces? (trim block)).getD block)).mapM fun (name, value) ↦
    readField name value

theorem entries_eq (body : List Char) : entries body = .ok (Source.entries body) := by
  rw [entries, splitTopLevel_eq]
  rfl

theorem readField_eq (name value : List Char) :
    readField name value = .ok (withKey (Source.readField name value)) := by
  rw [readField, Source.readField]
  cases betweenBraces? value with
  | none => exact makeField_eq _
  | some body =>
    simp only [entries_eq]
    exact makeField_eq _

theorem readAttributes_eq (block : List Char) :
    readAttributes block = .ok ((Source.readAttributes block).map withKey) := by
  rw [readAttributes, Source.readAttributes, entries_eq, List.map_map]
  simp only [readField_eq]
  exact List.mapM_pure

/-! ### Definitions -/

/-- The name of a model, and its fields, each with whether it is a foreign key. -/
abbrev KeyedModel := String × List (Field × Bool)

/-- A model with the foreign keys among its fields. -/
def withKeys (m : Model) : KeyedModel := (m.name, m.fields.map withKey)

/-- The model that the arguments of a defining call describe. -/
def readDefinition (text : List Char) : Except Fault (Option KeyedModel) := do
  let some rest ← skipTypeArguments (skipBlanks text) | return none
  let some rest := expectToken '(' rest | return none
  let some (name, rest) ← quotedName? (skipBlanks rest) | return none
  let some rest := expectToken ',' rest | return none
  if (skipBlanks rest).head? = some '{' then
    let some block ← block? (skipBlanks rest) | return none
    return some (String.ofList name, ← readAttributes block)
  else return none

/-- The model that a call of the defining method describes, where `rest` is what stands in the text
from the call on. The call ends where what stands behind it begins. -/
def readCall (text rest : List Char) : Except Fault (Option KeyedModel) :=
  match afterDefine rest with
  | none => .ok none
  | some behind => do
    let stop ← minus (utf8Len text) (utf8Len behind)
    readDefinition (← sliceFrom text stop)

/-- The model of the first readable definition in a text, searched in what is left of it. -/
def findModel (text : List Char) (afterWord : Bool) :
    List Char → Except Fault (Option KeyedModel)
  | [] => .ok none
  | c :: rest => do
    match ← if afterWord then .ok none else readCall text (c :: rest) with
    | some model => return some model
    | none => findModel text (isWordChar c) rest

/-- The model that a source text defines, if it defines one. -/
def extractModel (text : String) : Except Fault (Option KeyedModel) :=
  findModel (withoutComments text.toList) false (withoutComments text.toList)

theorem readDefinition_eq (text : List Char) :
    readDefinition text = .ok ((Source.readDefinition text).map withKeys) := by
  rw [readDefinition, Source.readDefinition, skipTypeArguments_eq]
  rcases Source.skipTypeArguments (skipBlanks text) with - | rest
  · rfl
  simp only [bind, Except.bind, Option.bind_some]
  rcases expectToken '(' rest with - | rest
  · rfl
  simp only [quotedName?_eq, Option.bind_some]
  rcases Source.quotedName? (skipBlanks rest) with - | ⟨name, rest⟩
  · rfl
  simp only [Option.bind_some]
  rcases expectToken ',' rest with - | rest
  · rfl
  simp only [Option.bind_some]
  split
  · simp only [block?_eq]
    rcases Text.block? (skipBlanks rest) with - | ⟨block, after⟩
    · rfl
    · simp only [Option.map_some, readAttributes_eq, Option.bind_some]
      rfl
  · rfl

/-- The arguments of a call are cut out behind it. -/
theorem readCall_eq (front rest : List Char) :
    readCall (front ++ rest) rest =
      .ok (((afterDefine rest).bind Source.readDefinition).map withKeys) := by
  rw [readCall]
  cases hcall : afterDefine rest with
  | none => rfl
  | some behind =>
    obtain ⟨call, -, rfl, -⟩ := isDefineCall_of_afterDefine hcall
    have hcut : sliceFrom (front ++ (call ++ behind)) (utf8Len (front ++ call)) = .ok behind := by
      rw [← List.append_assoc]
      exact sliceFrom_append (front ++ call) behind
    have hminus : minus (utf8Len (front ++ (call ++ behind))) (utf8Len behind) =
        .ok (utf8Len (front ++ call)) := by
      rw [← List.append_assoc, String.utf8Len_append]
      exact minus_add ..
    simp only [hminus, bind, Except.bind, hcut]
    exact readDefinition_eq behind

/-- The first call that can be read is found, whatever stands in front of what is left to search. -/
theorem findModel_eq (front rest : List Char) (afterWord : Bool) :
    findModel (front ++ rest) afterWord rest =
      .ok ((findBefore (fun _ ↦ false) (fun rest ↦ (afterDefine rest).bind Source.readDefinition)
        afterWord rest).map withKeys) := by
  induction rest generalizing front afterWord with
  | nil => rfl
  | cons c rest ih =>
    have hgo := ih (front ++ [c]) (isWordChar c)
    rw [List.append_assoc, List.singleton_append] at hgo
    rw [findModel, findBefore, readCall_eq]
    cases afterWord with
    | true => exact hgo
    | false =>
      simp only [Bool.false_eq_true, if_false, bind, Except.bind]
      rcases (afterDefine (c :: rest)).bind Source.readDefinition with - | model
      · exact hgo
      · rfl

/-- **No reading has a fault.** Whatever a text is, it is cut at places only and no count is lowered
below zero, when a model is searched in it, when it is read as a block of attributes, and when a
field is made under any name. What is read is what is read without offsets. -/
theorem reads_without_fault (text : String) :
    extractModel text = .ok ((Source.extractModel text).map withKeys) ∧
      readAttributes text.toList = .ok ((parseAttributes text).map withKey) ∧
      ∀ f : Field, makeField f = .ok (withKey f) := by
  refine ⟨?_, readAttributes_eq text.toList, makeField_eq⟩
  exact findModel_eq [] (withoutComments text.toList) false

end SchemaDiagram.Source.Offset
