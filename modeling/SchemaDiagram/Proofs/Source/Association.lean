import SchemaDiagram.Proofs.Source.AssociationCall
import SchemaDiagram.Source.Association

/-!
# Written declarations

A text in which every association is declared by a statement of its own, `receiver.kind(…);` and a
line break, declares exactly those associations, in their order
(`extractAssociations_statements`). A modifier that is set comes back with its value, whatever the
order of the modifiers and the form of their values, and one that is not set stays unset.
-/

namespace SchemaDiagram.Source

open Text

/-! ### Declarations by their modifiers -/

/-- The value of a modifier of an association, if it is set. -/
def modifier? (a : Association) : ModifierKey → Option String
  | .foreignKey => a.foreignKey
  | .sourceKey => a.sourceKey
  | .targetKey => a.targetKey
  | .aliasName => a.aliasName
  | .through => a.through

/-- Two declarations of one kind between the same models are the same if their modifiers are. -/
theorem association_eq {a b : Association} (hsource : a.source = b.source)
    (htarget : a.target = b.target) (hkind : a.kind = b.kind)
    (hmodifier : ∀ key, modifier? a key = modifier? b key) : a = b := by
  obtain ⟨source, target, kind, foreignKey, sourceKey, targetKey, aliasName, through⟩ := a
  obtain rfl := hsource
  obtain rfl := htarget
  obtain rfl := hkind
  obtain rfl : foreignKey = b.foreignKey := hmodifier .foreignKey
  obtain rfl : sourceKey = b.sourceKey := hmodifier .sourceKey
  obtain rfl : targetKey = b.targetKey := hmodifier .targetKey
  obtain rfl : aliasName = b.aliasName := hmodifier .aliasName
  obtain rfl : through = b.through := hmodifier .through
  rfl

/-- A call's modifiers are read from its options, each by its key. -/
theorem modifier?_declaration (headers : List (Nat × List Char)) (position : Nat)
    (call : AssociationCall) (key : ModifierKey) :
    modifier? (declaration headers position call) key =
      (key.read? call.options).map String.ofList := by
  cases key <;> rfl

/-- What a text declares does not depend on the classes in it if no call is made on `this`. -/
theorem findAssociations_eq_map {text : List Char}
    (h : ∀ call ∈ (associationCalls 0 text).map Prod.snd, call.receiver ≠ selfName) :
    findAssociations text = ((associationCalls 0 text).map Prod.snd).map (declaration [] 0) := by
  rw [findAssociations, List.map_map]
  refine List.map_congr_left fun ⟨position, call⟩ hmem ↦ ?_
  -- the classes and the place of the call matter to `this` only
  have hreceiver : call.receiver ≠ selfName :=
    h call (List.mem_map.2 ⟨(position, call), hmem, rfl⟩)
  simp only [declaration, resolveReceiver, Function.comp_apply, if_neg hreceiver]

/-! ### What is written -/

/-- The modifiers that a call is written with. -/
def WrittenCall.modifiers (w : WrittenCall) : List WrittenModifier :=
  w.argument.elim [] fun argument ↦ argument.options.modifiers

/-- A statement that declares an association: the call that says the same as the association, a
semicolon, and a line break. -/
structure Statement where
  /-- The association that is declared. -/
  association : Association
  /-- White space before the call. -/
  before : Gap
  /-- The call. -/
  call : WrittenCall
  /-- White space between the call and the semicolon. -/
  beforeSemicolon : Gap
  /-- White space between the semicolon and the line break. -/
  beforeBreak : Gap
  receiver_eq : call.receiver = association.source.toList
  kind_eq : call.kind = association.kind
  target_eq : call.target = association.target.toList
  /-- The call is made on a model by its own name. -/
  receiver_ne_selfName : call.receiver ≠ selfName
  /-- What is written for a modifier is its value. -/
  modifier?_of_mem : ∀ m ∈ call.modifiers,
    modifier? association m.key = some (String.ofList m.value)
  /-- Every modifier that is set is written. -/
  exists_of_modifier? : ∀ key value, modifier? association key = some value →
    ∃ m ∈ call.modifiers, m.key = key

namespace Statement

variable (s : Statement)

/-- The end of the statement as it is written. -/
def ending : List Char := s.beforeSemicolon.text ++ ';' :: s.beforeBreak.text ++ ['\n']

/-- The statement as it is written. -/
def text : List Char := s.before.text ++ s.call.text ++ s.ending

/-! ### Reading it back -/

theorem read?_options (key : ModifierKey) :
    (key.read? s.call.call.options).map String.ofList = modifier? s.association key := by
  have hread : key.read? s.call.call.options =
      (s.call.modifiers.find? fun m ↦ m.key = key).map WrittenModifier.value := by
    rcases hargument : s.call.argument with - | argument
    · simp only [WrittenCall.call, WrittenCall.modifiers, hargument]
      rfl
    · simp only [WrittenCall.call, WrittenCall.modifiers, hargument, Option.elim_some]
      exact WrittenOptions.read?_text key argument.options
  rcases hfind : s.call.modifiers.find? (fun m ↦ m.key = key) with - | m
  · rw [hread, hfind]
    rcases hset : modifier? s.association key with - | value
    · rfl
    · -- a modifier that is set is written, so it would have been found
      obtain ⟨m, hmem, hkey⟩ := s.exists_of_modifier? key value hset
      exact absurd (List.find?_eq_none.1 hfind m hmem) (by simp [hkey])
  · have hkey : m.key = key := by simpa using List.find?_some hfind
    rw [hread, hfind, ← hkey, s.modifier?_of_mem m (List.mem_of_find?_eq_some hfind)]
    rfl

theorem declaration_call : declaration [] 0 s.call.call = s.association := by
  refine association_eq ?_ ?_ s.kind_eq fun key ↦ ?_
  · show String.ofList (resolveReceiver [] 0 s.call.receiver) = s.association.source
    rw [resolveReceiver, if_neg s.receiver_ne_selfName, s.receiver_eq, String.ofList_toList]
  · show String.ofList s.call.target = s.association.target
    rw [s.target_eq, String.ofList_toList]
  · rw [modifier?_declaration, s.read?_options key]

theorem isIdentifierStart_of_mem_ending : ∀ c ∈ s.ending, isIdentifierStart c = false := by
  intro c hc
  simp only [ending, List.append_assoc, List.mem_append, List.cons_append, List.mem_cons,
    List.not_mem_nil, or_false] at hc
  rcases hc with hc | rfl | hc | rfl
  · exact s.beforeSemicolon.isIdentifierStart_of_mem c hc
  · decide
  · exact s.beforeBreak.isIdentifierStart_of_mem c hc
  · decide

/-- A statement holds one call, and the search goes on behind it. -/
theorem map_associationCalls_append (position : Nat) (rest : List Char) :
    ∃ behind, (associationCalls position (s.text ++ rest)).map Prod.snd =
      s.call.call :: (associationCalls behind rest).map Prod.snd := by
  have htext : s.text ++ rest = s.before.text ++ (s.call.text ++ (s.ending ++ rest)) := by
    simp [text]
  obtain ⟨behind, hcall⟩ := associationCalls_eq_cons
    (s.call.associationCall?_text (s.ending ++ rest)) (position + s.before.text.length)
  refine ⟨behind + s.ending.length, ?_⟩
  rw [htext, associationCalls_append s.before.isIdentifierStart_of_mem, hcall,
    associationCalls_append s.isIdentifierStart_of_mem_ending, List.map_cons]

end Statement

/-- The calls of a text that is written statement by statement are those of the statements. -/
theorem map_associationCalls_statements (statements : List Statement) (position : Nat) :
    (associationCalls position (statements.flatMap Statement.text)).map Prod.snd =
      statements.map fun s ↦ s.call.call := by
  induction statements generalizing position with
  | nil =>
    rw [List.flatMap_nil, associationCalls]
    rfl
  | cons s statements ih =>
    obtain ⟨behind, hcalls⟩ :=
      s.map_associationCalls_append position (statements.flatMap Statement.text)
    rw [List.flatMap_cons, hcalls, ih behind, List.map_cons]

/-! ### Which declarations can be written -/

/-- What lets a declaration be written: its models have identifiers as names, and the values of its
modifiers can stand between quotes and can be told from what surrounds them. -/
structure IsWritable (a : Association) : Prop where
  isIdentifier_source : IsIdentifier a.source.toList
  source_ne_selfName : a.source.toList ≠ selfName
  isIdentifier_target : IsIdentifier a.target.toList
  ne_nil_of_modifier? : ∀ key value, modifier? a key = some value → value.toList ≠ []
  of_mem_modifier? : ∀ key value, modifier? a key = some value →
    ∀ c ∈ value.toList, isQuote c = false ∧ c ≠ ':' ∧ c ≠ '}'

/-- The modifiers that are set among some keys, written without white space and objects. -/
theorem IsWritable.exists_modifiers {a : Association} (h : IsWritable a)
    (keys : List ModifierKey) : ∃ modifiers : List WrittenModifier,
      (∀ m ∈ modifiers, modifier? a m.key = some (String.ofList m.value)) ∧
        ∀ key ∈ keys, ∀ value, modifier? a key = some value → ∃ m ∈ modifiers, m.key = key := by
  induction keys with
  | nil => exact ⟨[], by simp, by simp⟩
  | cons key keys ih =>
    obtain ⟨modifiers, hvalue, hset⟩ := ih
    rcases hkey : modifier? a key with - | value
    · refine ⟨modifiers, hvalue, fun other hother value hother' ↦ ?_⟩
      rcases List.mem_cons.1 hother with rfl | hmem
      · exact absurd (hkey.symm.trans hother').symm (Option.some_ne_none _)
      · exact hset other hmem value hother'
    · have hchar := h.of_mem_modifier? key value hkey
      let m : WrittenModifier :=
        { before := .none, key := key, beforeColon := .none, afterColon := .none, quote := '"',
          value := value.toList, object := none, behind := .none,
          isQuote_quote := by decide
          value_ne_nil := h.ne_nil_of_modifier? key value hkey
          isQuote_of_mem_value := fun c hc ↦ (hchar c hc).1
          colon_not_mem_value := fun hc ↦ (hchar ':' hc).2.1 rfl
          brace_not_mem_value := fun hc ↦ (hchar '}' hc).2.2 rfl
          key_of_object := by simp }
      refine ⟨m :: modifiers, ?_, fun other hother value hother' ↦ ?_⟩
      · intro m' hm'
        rcases List.mem_cons.1 hm' with rfl | hmem
        · rw [String.ofList_toList]
          exact hkey
        · exact hvalue m' hmem
      · rcases List.mem_cons.1 hother with rfl | hmem
        · exact ⟨m, List.mem_cons_self, rfl⟩
        · obtain ⟨m', hm', hkey'⟩ := hset other hmem value hother'
          exact ⟨m', List.mem_cons_of_mem m hm', hkey'⟩

/-- A call with the modifiers between braces, written without white space. -/
theorem IsWritable.exists_statement {a : Association} (h : IsWritable a) :
    ∃ s : Statement, s.association = a := by
  obtain ⟨modifiers, hvalue, hset⟩ := h.exists_modifiers ModifierKey.all
  let call : WrittenCall :=
    { receiver := a.source.toList, beforeDot := .none, afterDot := .none, kind := a.kind,
      beforeOpening := .none, afterOpening := .none, qualifiers := [],
      target := a.target.toList,
      argument := some ⟨.none, .none, ⟨modifiers, none⟩⟩,
      beforeClosing := .none,
      isIdentifier_receiver := h.isIdentifier_source
      isIdentifier_target := h.isIdentifier_target }
  exact ⟨{ association := a, before := .none, call := call, beforeSemicolon := .none,
           beforeBreak := .none, receiver_eq := rfl, kind_eq := rfl, target_eq := rfl,
           receiver_ne_selfName := h.source_ne_selfName
           modifier?_of_mem := hvalue
           exists_of_modifier? := fun key ↦ hset key key.mem_all }, rfl⟩

/-- **The declarations that have a statement** are those with identifiers as names and with values
that can be told from what surrounds them. -/
theorem exists_statement_iff {a : Association} :
    (∃ s : Statement, s.association = a) ↔ IsWritable a := by
  refine ⟨?_, IsWritable.exists_statement⟩
  rintro ⟨s, rfl⟩
  have hvalue : ∀ key value, modifier? s.association key = some value →
      ∃ m : WrittenModifier, value.toList = m.value := by
    intro key value hset
    obtain ⟨m, hmem, rfl⟩ := s.exists_of_modifier? key value hset
    rw [s.modifier?_of_mem m hmem] at hset
    exact ⟨m, by rw [← Option.some.inj hset, String.toList_ofList]⟩
  refine ⟨?_, ?_, ?_, fun key value hset ↦ ?_, fun key value hset c hc ↦ ?_⟩
  · rw [← s.receiver_eq]
    exact s.call.isIdentifier_receiver
  · rw [← s.receiver_eq]
    exact s.receiver_ne_selfName
  · rw [← s.target_eq]
    exact s.call.isIdentifier_target
  · obtain ⟨m, hm⟩ := hvalue key value hset
    rw [hm]
    exact m.value_ne_nil
  · obtain ⟨m, hm⟩ := hvalue key value hset
    rw [hm] at hc
    refine ⟨m.isQuote_of_mem_value c hc, ?_, ?_⟩
    · rintro rfl
      exact m.colon_not_mem_value hc
    · rintro rfl
      exact m.brace_not_mem_value hc

/-- **Written declarations are read back**: all of them, in their order, each with the modifiers
that are set and no others. -/
theorem extractAssociations_statements (statements : List Statement) :
    extractAssociations (String.ofList (statements.flatMap Statement.text)) =
      statements.map Statement.association := by
  have hcalls := map_associationCalls_statements statements 0
  have hreceiver : ∀ call ∈ (associationCalls 0 (statements.flatMap Statement.text)).map Prod.snd,
      call.receiver ≠ selfName := by
    intro call hmem
    rw [hcalls] at hmem
    obtain ⟨s, -, rfl⟩ := List.mem_map.1 hmem
    exact s.receiver_ne_selfName
  rw [extractAssociations, String.toList_ofList, findAssociations_eq_map hreceiver, hcalls,
    List.map_map]
  exact List.map_congr_left fun s _ ↦ s.declaration_call

-- a value that is itself a key is not taken for one
example : extractAssociations
    "Task.belongsTo(m.Project, \x7b as: 'through', foreignKey: \x7b name: \"as\" \x7d \x7d);\n" =
      [{ source := "Task", target := "Project", kind := .belongsTo, foreignKey := some "as",
         aliasName := some "through" }] := by
  decide +kernel

end SchemaDiagram.Source
