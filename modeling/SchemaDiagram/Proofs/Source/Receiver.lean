import SchemaDiagram.Proofs.Source.ClassHeader
import SchemaDiagram.Proofs.Source.Scan
import SchemaDiagram.Proofs.Source.SeenOptions

/-!
# The models that calls are made on

A call on a model by its name is a declaration of that model. A call on `this` is a declaration of
the class with the last header before the call, and keeps `this` where there is none (`StandsFor`).
So in a text that is a sequence of model classes, the calls on `this` in the body of a class are
declarations of that class, however many classes and calls there are and however they alternate
(`extractAssociations_receivers`).

## From places to classes

Headers and calls are searched for separately and brought together by their places. Where a text is
written piece by piece (`IsWrittenAs`), what `this` stands for is carried from each piece to the
next: it changes at the openings of classes and nowhere else (`IsWrittenAs.standsFor_enclosing`). So
the calls of all pieces are declared as the openings in front of them say
(`IsWrittenAs.map_extractAssociations`), and a class is a few pieces.
-/

namespace SchemaDiagram.Source

open Text

/-! ### What a receiver stands for -/

/-- The model that a call at a place is made on, by what stands in front of the dot. -/
inductive StandsFor (text : List Char) (place : Nat) : (receiver name : List Char) → Prop where
  /-- A name stands for itself. -/
  | named {receiver : List Char} (h : receiver ≠ selfName) : StandsFor text place receiver receiver
  /-- `this` stands for the class with the last header before the call. -/
  | enclosed {start : Nat} {header : ClassHeader}
      (h : IsLastHeaderBefore text place start header) :
    StandsFor text place selfName header.name
  /-- Without a header before the call, `this` is kept. -/
  | outside (h : ∀ start header, IsHeaderAt text start header → ¬start < place) :
    StandsFor text place selfName selfName

section StandsFor

variable {text : List Char} {place : Nat}

theorem IsLastHeaderBefore.name_eq {start start' : Nat} {h h' : ClassHeader}
    (hlast : IsLastHeaderBefore text place start h)
    (hlast' : IsLastHeaderBefore text place start' h') : h.name = h'.name := by
  obtain rfl : start = start' := Nat.le_antisymm
    (hlast'.le_of_lt start h hlast.isHeaderAt hlast.lt)
    (hlast.le_of_lt start' h' hlast'.isHeaderAt hlast'.lt)
  exact hlast.isHeaderAt.name_eq hlast'.isHeaderAt

/-- A receiver stands for one model. -/
theorem StandsFor.unique {receiver name other : List Char} (h : StandsFor text place receiver name)
    (h' : StandsFor text place receiver other) : name = other := by
  cases h with
  | named hne =>
    cases h' with
    | named => rfl
    | enclosed => exact absurd rfl hne
    | outside => rfl
  | enclosed hlast =>
    cases h' with
    | named hne => exact absurd rfl hne
    | enclosed hlast' => exact hlast.name_eq hlast'
    | outside hnone => exact absurd hlast.lt (hnone _ _ hlast.isHeaderAt)
  | outside hnone =>
    cases h' with
    | named => rfl
    | enclosed hlast => exact absurd hlast.lt (hnone _ _ hlast.isHeaderAt)
    | outside => rfl

/-- What `this` stands for stays the same where no header comes in between. -/
theorem StandsFor.of_le {place' : Nat} {name : List Char} (h : StandsFor text place selfName name)
    (hle : place ≤ place') (hbefore : ∀ start header, IsHeaderAt text start header →
      start < place' → start < place) : StandsFor text place' selfName name := by
  cases h with
  | named hne => exact absurd rfl hne
  | enclosed hlast =>
    exact .enclosed ⟨hlast.isHeaderAt, Nat.lt_of_lt_of_le hlast.lt hle, fun start header hat hlt ↦
      hlast.le_of_lt start header hat (hbefore start header hat hlt)⟩
  | outside hnone =>
    exact .outside fun start header hat hlt ↦ hnone start header hat (hbefore start header hat hlt)

theorem standsFor_resolveReceiver (text : List Char) (place : Nat) (receiver : List Char) :
    StandsFor text place receiver
      (resolveReceiver (classHeaders 0 false text) place receiver) := by
  by_cases hself : receiver = selfName
  · subst hself
    rw [resolveReceiver, if_pos rfl]
    rcases hclass : enclosingClass (classHeaders 0 false text) place with - | name
    · exact .outside fun _ _ hat ↦ not_lt_of_enclosingClass_eq_none hclass hat
    · obtain ⟨start, header, hlast, rfl⟩ := exists_isLastHeaderBefore hclass
      exact .enclosed hlast
  · rw [resolveReceiver, if_neg hself]
    exact .named hself

end StandsFor

/-- The association is the one that a call at a place declares, apart from its modifiers. -/
structure IsDeclaredAt (text : List Char) (a : Association) (place : Nat) (token : List Char) :
    Prop where
  isDeclaredBy : IsDeclaredBy a token
  standsFor : ∀ c : CallForm, c.text = token →
    StandsFor text place c.head.receiver a.source.toList

theorem isDeclaredAt_declaration (text : List Char) (place : Nat) {call : AssociationCall}
    {token : List Char} (h : ReadsAs token call) :
    IsDeclaredAt text (declaration (classHeaders 0 false text) place call) place token := by
  refine ⟨isDeclaredBy_declaration _ place h, fun c hc ↦ ?_⟩
  obtain ⟨c', hc', rfl⟩ := h
  have hreceiver : c.head.receiver = c'.head.receiver :=
    congrArg AssociationCall.receiver (CallForm.head_call_eq (hc.trans hc'.symm))
  show StandsFor text place c.head.receiver (String.toList (String.ofList _))
  rw [String.toList_ofList, hreceiver]
  exact standsFor_resolveReceiver text place _

/-- The matches of the scan for calls declare the associations, one by one. -/
theorem exists_scan_isDeclaredAt (text : String) :
    ∃ found, Scan IsCallText text.toList 0 found ∧
      List.Forall₂ (fun a m ↦ IsDeclaredAt text.toList a m.1 m.2) (extractAssociations text)
        found := by
  obtain ⟨found, hscan, hfound⟩ := exists_scan text.toList 0 text.toList rfl
  refine ⟨found, hscan, ?_⟩
  rw [extractAssociations, findAssociations, List.forall₂_map_left_iff]
  refine hfound.flip.imp fun x m h ↦ ?_
  rw [h.1]
  exact isDeclaredAt_declaration text.toList x.1 h.2

/-! ### The places of pieces -/

section Placed

variable {α : Type} {write : α → List Char}

/-- Pieces that are written one behind another, with the places at which they start. -/
def placed (write : α → List Char) : (start : Nat) → List α → List (Nat × α)
  | _, [] => []
  | start, x :: pieces => (start, x) :: placed write (start + (write x).length) pieces

/-- A piece starts where those in front of it end. -/
theorem exists_of_mem_placed {start place : Nat} {pieces : List α} {x : α}
    (h : (place, x) ∈ placed write start pieces) :
    ∃ front back, pieces = front ++ x :: back ∧ place = start + (front.flatMap write).length := by
  induction pieces generalizing start with
  | nil => exact absurd h List.not_mem_nil
  | cons first pieces ih =>
    rcases List.mem_cons.1 h with heq | h
    · obtain ⟨rfl, rfl⟩ := Prod.mk.inj heq
      exact ⟨[], pieces, rfl, rfl⟩
    · obtain ⟨front, back, rfl, rfl⟩ := ih h
      refine ⟨first :: front, back, rfl, ?_⟩
      rw [List.flatMap_cons, List.length_append, Nat.add_assoc]

theorem pairwise_placed (write : α → List Char) (start : Nat) (pieces : List α) :
    (placed write start pieces).Pairwise fun x y ↦ x.1 + (write x.2).length ≤ y.1 := by
  induction pieces generalizing start with
  | nil => exact .nil
  | cons first pieces ih =>
    refine .cons (fun y hy ↦ ?_) (ih _)
    obtain ⟨front, -, -, hplace⟩ := exists_of_mem_placed (x := y.2) hy
    exact hplace ▸ Nat.le_add_right _ _

/-- Of two pieces, one ends before the other starts. -/
theorem eq_or_le_of_mem_placed {start : Nat} {pieces : List α} {x y : Nat × α}
    (hx : x ∈ placed write start pieces) (hy : y ∈ placed write start pieces) :
    x = y ∨ x.1 + (write x.2).length ≤ y.1 ∨ y.1 + (write y.2).length ≤ x.1 := by
  obtain ⟨front, back, hsplit⟩ := List.append_of_mem hx
  have hsorted := pairwise_placed write start pieces
  rw [hsplit] at hy hsorted
  obtain ⟨-, hback, hfront⟩ := List.pairwise_append.1 hsorted
  rcases List.mem_append.1 hy with hy | hy
  · exact .inr (.inr (hfront y hy x List.mem_cons_self))
  · rcases List.mem_cons.1 hy with rfl | hy
    · exact .inl rfl
    · exact .inr (.inl ((List.pairwise_cons.1 hback).1 y hy))

end Placed

/-! ### Texts of calls and classes -/

/-- A piece of a text. -/
inductive Piece where
  /-- Any text. -/
  | plain (text : List Char)
  /-- A call. -/
  | call (form : CallForm)
  /-- The opening of a class: its header, and the brace in front of its body. -/
  | opening (header : ClassHeader) (beforeBrace : Gap)

namespace Piece

/-- The piece as it is written. -/
def text : Piece → List Char
  | plain text => text
  | call form => form.text
  | opening header beforeBrace => header.text ++ (beforeBrace.text ++ ['{'])

/-- The class that the text behind a piece belongs to, if the text in front of it belongs to a class
of that name. -/
def enclosing (name : List Char) : Piece → List Char
  | plain _ | call _ => name
  | opening header _ => header.name

/-- The call that a piece is, with its place. -/
def callAt? (place : Nat) : Piece → Option (Nat × CallForm)
  | call form => some (place, form)
  | plain _ | opening _ _ => none

theorem length_opening_pos (header : ClassHeader) (g : Gap) :
    0 < (opening header g).text.length := by
  simp only [text, List.length_append, List.length_singleton]
  omega

theorem callAt?_eq_some_iff {place : Nat} {piece : Piece} {x : Nat × CallForm} :
    piece.callAt? place = some x ↔ place = x.1 ∧ piece = .call x.2 := by
  obtain ⟨place', form⟩ := x
  cases piece <;> simp [callAt?]

end Piece

/-- The calls among pieces that are written one behind another, with their places. -/
def placedCalls (start : Nat) (pieces : List Piece) : List (Nat × CallForm) :=
  (placed Piece.text start pieces).filterMap fun x ↦ x.2.callAt? x.1

theorem mem_placedCalls {start : Nat} {pieces : List Piece} {x : Nat × CallForm} :
    x ∈ placedCalls start pieces ↔ (x.1, Piece.call x.2) ∈ placed Piece.text start pieces := by
  simp only [placedCalls, List.mem_filterMap, Piece.callAt?_eq_some_iff]
  constructor
  · rintro ⟨⟨place, piece⟩, hmem, rfl, rfl⟩
    exact hmem
  · exact fun hmem ↦ ⟨_, hmem, rfl, rfl⟩

/-- What a call on a model declares: a source, a kind and a target. -/
def declaredOn (name : List Char) (c : CallForm) : String × AssociationKind × String :=
  (String.ofList name, c.head.kind, String.ofList c.head.target)

/-- What a call declares in a class: a call on `this` is one on the class. -/
def declaredIn (name : List Char) (c : CallForm) : String × AssociationKind × String :=
  declaredOn (if c.head.receiver = selfName then name else c.head.receiver) c

/-- What the calls among the pieces declare, if the first piece stands in a class of the name. -/
def declaredBy : (name : List Char) → List Piece → List (String × AssociationKind × String)
  | _, [] => []
  | name, .plain _ :: pieces => declaredBy name pieces
  | name, .call form :: pieces => declaredIn name form :: declaredBy name pieces
  | _, .opening header _ :: pieces => declaredBy header.name pieces

/-- The pieces are those of the text, and no header or call is missing among them. -/
structure IsWrittenAs (text : List Char) (pieces : List Piece) : Prop where
  text_eq : text = pieces.flatMap Piece.text
  /-- No word goes on into a class. -/
  isWordChar_before : ∀ place h g, (place, Piece.opening h g) ∈ placed Piece.text 0 pieces →
    ∀ c ∈ (text.take place).getLast?, isWordChar c = false
  /-- Every header is that of an opening. -/
  opening : ∀ place h, IsHeaderAt text place h →
    ∃ h' g, (place, Piece.opening h' g) ∈ placed Piece.text 0 pieces
  /-- No call begins outside the calls. -/
  call : ∀ place, BeginsAt IsCallText text place →
    ∃ x ∈ placedCalls 0 pieces, x.1 ≤ place ∧ place < x.1 + x.2.text.length
  /-- The options of a call end nowhere before their last brace. -/
  options : ∀ form, Piece.call form ∈ pieces → HasNoOptionsEnd form.argument.options

namespace IsWrittenAs

variable {text : List Char} {pieces : List Piece}

theorem exists_drop_eq (h : IsWrittenAs text pieces) {place : Nat} {piece : Piece}
    (hmem : (place, piece) ∈ placed Piece.text 0 pieces) :
    ∃ rest, text.drop place = piece.text ++ rest := by
  obtain ⟨front, back, hpieces, rfl⟩ := exists_of_mem_placed hmem
  refine ⟨back.flatMap Piece.text, ?_⟩
  rw [h.text_eq, hpieces, List.flatMap_append, Nat.zero_add, List.drop_left, List.flatMap_cons]

/-- **The calls are the matches of the scan for calls.** -/
theorem scan (h : IsWrittenAs text pieces) :
    Scan IsCallText text 0 ((placedCalls 0 pieces).map fun x ↦ (x.1, x.2.text)) := by
  refine .of_covering ?_ (fun _ _ ↦ Nat.zero_le _) ?_ ?_
  · rw [List.pairwise_map, placedCalls, List.pairwise_filterMap]
    refine (pairwise_placed Piece.text 0 pieces).imp fun hle x hx y hy ↦ ?_
    obtain ⟨hx, hcall⟩ := Piece.callAt?_eq_some_iff.1 hx
    obtain ⟨hy, -⟩ := Piece.callAt?_eq_some_iff.1 hy
    rwa [hx, hcall, hy] at hle
  · rintro _ hx
    obtain ⟨⟨place, form⟩, hmem, rfl⟩ := List.mem_map.1 hx
    have hplaced := mem_placedCalls.1 hmem
    obtain ⟨front, back, hpieces, -⟩ := exists_of_mem_placed hplaced
    have hoptions := h.options form (hpieces ▸ List.mem_append_right front List.mem_cons_self)
    obtain ⟨rest, hdrop⟩ := h.exists_drop_eq hplaced
    exact isShortestAt_of_associationCall? hdrop (hoptions.associationCall?_text rest)
  · intro place _ hbegins
    obtain ⟨x, hx, hcover⟩ := h.call place hbegins
    exact ⟨_, List.mem_map_of_mem hx, hcover⟩

theorem isHeaderAt (h : IsWrittenAs text pieces) {place : Nat} {header : ClassHeader} {g : Gap}
    (hmem : (place, Piece.opening header g) ∈ placed Piece.text 0 pieces) :
    IsHeaderAt text place header := by
  obtain ⟨rest, hdrop⟩ := h.exists_drop_eq hmem
  refine ⟨h.isWordChar_before place header g hmem, g.text ++ '{' :: rest, ?_,
    startsWord_gap_cons g (by decide) rest⟩
  simp [hdrop, Piece.text]

/-- Within a piece no header starts, except that of an opening at its front. -/
theorem lt_or_eq_opening (h : IsWrittenAs text pieces) {place start : Nat} {piece : Piece}
    {header : ClassHeader} (hmem : (place, piece) ∈ placed Piece.text 0 pieces)
    (hat : IsHeaderAt text start header) (hlt : start < place + piece.text.length) :
    start < place ∨ start = place ∧ ∃ h' g, piece = .opening h' g := by
  obtain ⟨h', g, hopening⟩ := h.opening start header hat
  rcases eq_or_le_of_mem_placed hopening hmem with heq | hle | hle
  · obtain ⟨rfl, rfl⟩ := Prod.mk.inj heq
    exact .inr ⟨rfl, h', g, rfl⟩
  · exact .inl (Nat.lt_of_lt_of_le (Nat.lt_add_of_pos_right (Piece.length_opening_pos h' g)) hle)
  · exact absurd hlt (Nat.not_lt_of_le hle)

/-- **What `this` stands for changes at the openings of classes only.** -/
theorem standsFor_enclosing (h : IsWrittenAs text pieces) {place : Nat} {piece : Piece}
    {name : List Char} (hmem : (place, piece) ∈ placed Piece.text 0 pieces)
    (hname : StandsFor text place selfName name) :
    StandsFor text (place + piece.text.length) selfName (piece.enclosing name) := by
  have hsame (hpiece : ∀ header g, piece ≠ .opening header g) :
      StandsFor text (place + piece.text.length) selfName name := by
    refine hname.of_le (Nat.le_add_right _ _) fun start header hat hlt ↦ ?_
    rcases h.lt_or_eq_opening hmem hat hlt with hlt | ⟨-, h', g, hopening⟩
    · exact hlt
    · exact absurd hopening (hpiece h' g)
  cases piece with
  | plain text => exact hsame nofun
  | call form => exact hsame nofun
  | opening header g =>
    refine .enclosed ⟨h.isHeaderAt hmem,
      Nat.lt_add_of_pos_right (Piece.length_opening_pos header g), fun start h' hat hlt ↦ ?_⟩
    rcases h.lt_or_eq_opening hmem hat hlt with hlt | ⟨rfl, -⟩
    · exact Nat.le_of_lt hlt
    · exact Nat.le_refl _

/-- **Calls declare what the openings in front of them say.** -/
theorem map_placedCalls (h : IsWrittenAs text pieces) {start : Nat} {name : List Char}
    {behind : List Piece} (hbehind : ∀ x ∈ placed Piece.text start behind,
      x ∈ placed Piece.text 0 pieces) (hname : StandsFor text start selfName name) :
    (placedCalls start behind).map (fun x ↦ declaredOn
      (resolveReceiver (classHeaders 0 false text) x.1 x.2.head.receiver) x.2) =
        declaredBy name behind := by
  induction behind generalizing start name with
  | nil => rfl
  | cons piece behind ih =>
    have hrest := ih (fun x hx ↦ hbehind x (List.mem_cons_of_mem _ hx))
      (h.standsFor_enclosing (hbehind _ List.mem_cons_self) hname)
    cases piece with
    | plain text => exact hrest
    | opening header g => exact hrest
    | call form =>
      refine congrArg₂ List.cons ?_ hrest
      have hstands : StandsFor text start form.head.receiver
          (if form.head.receiver = selfName then name else form.head.receiver) := by
        split
        · next hself => rwa [hself]
        · next hself => exact .named hself
      exact congrArg (declaredOn · form) ((standsFor_resolveReceiver _ _ _).unique hstands)

/-- **A text declares what its pieces do**, call by call. -/
theorem map_extractAssociations {text : String} (h : IsWrittenAs text.toList pieces) :
    (extractAssociations text).map (fun a ↦ (a.source, a.kind, a.target)) =
      declaredBy selfName pieces := by
  obtain ⟨found, hscan, hfound⟩ := exists_scan_isDeclaredAt text
  rw [hscan.unique h.scan, List.forall₂_map_right_iff] at hfound
  have houtside : StandsFor text.toList 0 selfName selfName :=
    .outside fun start _ _ ↦ Nat.not_lt_zero start
  rw [← h.map_placedCalls (fun _ hx ↦ hx) houtside, ← List.forall₂_eq_eq_eq,
    List.forall₂_map_left_iff, List.forall₂_map_right_iff]
  refine hfound.imp fun a x hdeclared ↦ ?_
  have hsource := (hdeclared.standsFor x.2 rfl).unique (standsFor_resolveReceiver _ _ _)
  rw [declaredOn, ← hsource, String.ofList_toList, hdeclared.isDeclaredBy.kind_eq x.2 rfl,
    hdeclared.isDeclaredBy.target_eq x.2 rfl]

end IsWrittenAs

/-! ### Sequences of model classes -/

/-- A stretch of a text in which no class begins. -/
structure Passage where
  /-- The calls, each with the text in front of it. -/
  written : List (List Char × CallForm)
  /-- What stands behind the calls. -/
  behind : List Char

namespace Passage

variable (s : Passage)

/-- The calls of a passage. -/
def calls : List CallForm := s.written.map Prod.snd

/-- The passage as it is written. -/
def pieces : List Piece :=
  s.written.flatMap (fun x ↦ [.plain x.1, .call x.2]) ++ [.plain s.behind]

theorem declaredBy_pieces_append (name : List Char) (pieces : List Piece) :
    declaredBy name (s.pieces ++ pieces) =
      s.calls.map (declaredIn name) ++ declaredBy name pieces := by
  obtain ⟨written, behind⟩ := s
  induction written with
  | nil => rfl
  | cons x written ih => exact congrArg (declaredIn name x.2 :: ·) ih

end Passage

/-- A model class as it is written, with the text up to the next one. -/
structure ModelClass where
  /-- The header of the class. -/
  header : ClassHeader
  /-- White space between the header and the brace. -/
  beforeBrace : Gap
  /-- The body of the class. -/
  body : Passage
  /-- What stands behind the body. -/
  behind : Passage

namespace ModelClass

variable (k : ModelClass)

/-- The class as it is written. -/
def pieces : List Piece :=
  .opening k.header k.beforeBrace :: (k.body.pieces ++ .plain ['}'] :: k.behind.pieces)

/-- What the calls of the class declare. Those behind its body count as its own. -/
def declared : List (String × AssociationKind × String) :=
  (k.body.calls ++ k.behind.calls).map (declaredIn k.header.name)

theorem declaredBy_flatMap_pieces (name : List Char) (classes : List ModelClass) :
    declaredBy name (classes.flatMap pieces) = classes.flatMap declared := by
  induction classes generalizing name with
  | nil => rfl
  | cons k classes ih =>
    have hbehind := k.behind.declaredBy_pieces_append k.header.name (classes.flatMap pieces)
    have hbody := k.body.declaredBy_pieces_append k.header.name
      (.plain ['}'] :: (k.behind.pieces ++ classes.flatMap pieces))
    rw [declaredBy, hbehind, ih] at hbody
    rw [List.flatMap_cons, List.flatMap_cons, pieces, List.cons_append, List.append_assoc,
      List.cons_append, declaredBy, hbody, declared, List.map_append, List.append_assoc]

end ModelClass

/-- **What calls are made on.** Each call that the scan of a text finds is declared on the model
that its receiver stands for at its place. In a sequence of model classes, calls on `this` in the
body of a class are declared on that class, and calls on a name are declared on the name, in the
order of the text. -/
theorem extractAssociations_receivers :
    (∀ text : String, ∃ found, (∀ other, Scan IsCallText text.toList 0 other ↔ other = found) ∧
      List.Forall₂ (fun a m ↦ ∀ c : CallForm, c.text = m.2 →
        StandsFor text.toList m.1 c.head.receiver a.source.toList)
        (extractAssociations text) found) ∧
    ∀ (text : String) (before : Passage) (classes : List ModelClass),
      IsWrittenAs text.toList (before.pieces ++ classes.flatMap ModelClass.pieces) →
        (extractAssociations text).map (fun a ↦ (a.source, a.kind, a.target)) =
          before.calls.map (declaredIn selfName) ++ classes.flatMap ModelClass.declared := by
  refine ⟨fun text ↦ ?_, fun text before classes h ↦ ?_⟩
  · obtain ⟨found, hscan, hfound⟩ := exists_scan_isDeclaredAt text
    exact ⟨found, fun other ↦ ⟨fun h ↦ h.unique hscan, fun h ↦ h ▸ hscan⟩,
      hfound.imp fun _ _ h ↦ h.standsFor⟩
  · rw [h.map_extractAssociations, before.declaredBy_pieces_append,
      ModelClass.declaredBy_flatMap_pieces]

theorem isIdentifier_user : IsIdentifier "User".toList :=
  ⟨⟨_, _, rfl, by decide⟩, List.all_eq_true.1 (by decide)⟩

theorem isIdentifier_post : IsIdentifier "Post".toList :=
  ⟨⟨_, _, rfl, by decide⟩, List.all_eq_true.1 (by decide)⟩

theorem isIdentifier_selfName : IsIdentifier selfName :=
  ⟨⟨_, _, rfl, by decide⟩, List.all_eq_true.1 (by decide)⟩

theorem isIdentifier_db : IsIdentifier "db".toList :=
  ⟨⟨_, _, rfl, by decide⟩, List.all_eq_true.1 (by decide)⟩

/-- A call without options and without white space. -/
def bareCall {receiver target : List Char} (kind : AssociationKind)
    (hreceiver : IsIdentifier receiver) (htarget : IsIdentifier target) : CallForm where
  head :=
    { receiver, kind, target, beforeDot := .none, afterDot := .none, beforeOpening := .none,
      afterOpening := .none, qualifiers := [], isIdentifier_receiver := hreceiver,
      isIdentifier_target := htarget }
  argument := .absent
  beforeClosing := .none

/-- A header with one space between its words. -/
def bareHeader {name : List Char} (hname : IsIdentifier name) (qualifiers : List Qualifier) :
    ClassHeader where
  beforeName := .space
  name := name
  beforeExtends := .space
  beforeBase := .space
  qualifiers := qualifiers
  isIdentifier_name := hname
  beforeName_ne_nil := List.cons_ne_nil _ _
  beforeExtends_ne_nil := List.cons_ne_nil _ _
  beforeBase_ne_nil := List.cons_ne_nil _ _

/-- Two classes, each of which calls on `this`, and one of which calls on the other. -/
def blogText : String :=
  "class User extends Model \x7b\n  this.hasMany(Post);\n\x7d\n" ++
  "class Post extends db.Model \x7b\n  User.hasOne(Post); this.belongsTo(User);\n\x7d\n"

/-- The classes of the text. -/
def blogClasses : List ModelClass :=
  [{ header := bareHeader isIdentifier_user []
     beforeBrace := .space
     body := ⟨[("\n  ".toList, bareCall .hasMany isIdentifier_selfName isIdentifier_post)],
       ";\n".toList⟩
     behind := ⟨[], "\n".toList⟩ },
   { header := bareHeader isIdentifier_post [⟨"db".toList, .none, .none, isIdentifier_db⟩]
     beforeBrace := .space
     body := ⟨[("\n  ".toList, bareCall .hasOne isIdentifier_user isIdentifier_post),
       ("; ".toList, bareCall .belongsTo isIdentifier_selfName isIdentifier_user)], ";\n".toList⟩
     behind := ⟨[], "\n".toList⟩ }]

/-- The pieces of the text. -/
def blogPieces : List Piece := Passage.pieces ⟨[], []⟩ ++ blogClasses.flatMap ModelClass.pieces

theorem toList_blogText : blogText.toList = blogPieces.flatMap Piece.text := by decide +kernel

theorem isWrittenAs_blogText : IsWrittenAs blogText.toList blogPieces := by
  rw [toList_blogText]
  refine ⟨rfl, fun place h g hmem ↦ ?_, fun place h hat ↦ ?_, fun place hbegins ↦ ?_,
    fun form hmem ↦ ?_⟩
  · have hpieces : ∀ x ∈ placed Piece.text 0 blogPieces,
        wordGoesOn false ((blogPieces.flatMap Piece.text).take x.1) = false := by decide +kernel
    exact (wordGoesOn_eq_false_iff _).1 (hpieces _ hmem)
  · have hfound := mem_classHeaders_iff.2 ⟨h, hat, rfl⟩
    have hheaders : classHeaders 0 false (blogPieces.flatMap Piece.text) =
        [(0, "User".toList), (51, "Post".toList)] := by decide +kernel
    rw [hheaders] at hfound
    rcases List.mem_pair.1 hfound with heq | heq
    · rw [(Prod.mk.inj heq).1]
      exact ⟨_, _, List.mem_of_getElem? (i := 1) rfl⟩
    · rw [(Prod.mk.inj heq).1]
      exact ⟨_, _, List.mem_of_getElem? (i := 7) rfl⟩
  · have hcover : ∀ place < (blogPieces.flatMap Piece.text).length,
        associationCall? ((blogPieces.flatMap Piece.text).drop place) ≠ none →
          ∃ x ∈ placedCalls 0 blogPieces, x.1 ≤ place ∧ place < x.1 + x.2.text.length := by
      decide +kernel
    refine hcover place (lt_length_of_beginsAt hbegins) fun hnone ↦ ?_
    obtain ⟨token, htoken, hfront⟩ := hbegins
    exact associationCall?_eq_none_iff.1 hnone token htoken hfront
  · have hoptions : ∀ piece ∈ blogPieces, ∀ x ∈ piece.callAt? 0,
        throughBraceParenthesis? x.2.argument.options = none := by decide +kernel
    exact throughBraceParenthesis?_eq_none_iff.1 (hoptions _ hmem (0, form) rfl)

/-- The calls on `this` are calls on the class around them. -/
theorem extractAssociations_blogText : IsWrittenAs blogText.toList blogPieces ∧
    (extractAssociations blogText).map (fun a ↦ (a.source, a.kind, a.target)) =
      [("User", .hasMany, "Post"), ("User", .hasOne, "Post"), ("Post", .belongsTo, "User")] :=
  ⟨isWrittenAs_blogText,
    (extractAssociations_receivers.2 blogText _ _ isWrittenAs_blogText).trans (by decide +kernel)⟩

end SchemaDiagram.Source
