import SchemaDiagram.Proofs.Source.Association
import SchemaDiagram.Proofs.Source.CallGrammar

/-!
# Scanning for calls

A text declares one association for each match of a scan, and nothing else
(`extractAssociations_scan`). The scan is said without the readers: from the end of the last match
it goes on to the first place at which a call begins, and takes the shortest call that begins there
(`Scan`). Every text has exactly one scan for calls.

## What the result rests on

* `Scan.unique`: a scan of any language leaves no choice, since neither the first place nor the
  shortest of the tokens that begin there does.
* `exists_scan`: the search for calls is such a scan. It moves on by one character only where no
  call is read, so where none begins, and behind a call it goes on at the call's end.
-/

namespace SchemaDiagram.Source

open Text

/-! ### Scans -/

section Scan

variable {G : List Char → Prop} {text token : List Char} {start place : Nat}

/-- A token of the language begins at the place. -/
def BeginsAt (G : List Char → Prop) (text : List Char) (place : Nat) : Prop :=
  ∃ token, G token ∧ token <+: text.drop place

/-- The token is the shortest of the language that begins at the place. -/
structure IsShortestAt (G : List Char → Prop) (text : List Char) (place : Nat)
    (token : List Char) : Prop where
  mem : G token
  isPrefix : token <+: text.drop place
  length_le : ∀ other, G other → other <+: text.drop place → token.length ≤ other.length

/-- The matches that a scan for tokens of the language finds from some place on, each with the
place at which it begins. -/
inductive Scan (G : List Char → Prop) (text : List Char) : Nat → List (Nat × List Char) → Prop where
  /-- No token begins any more. -/
  | done {start : Nat} (hnone : ∀ place, start ≤ place → ¬ BeginsAt G text place) :
    Scan G text start []
  /-- The next match is the shortest token at the first place where one begins, and the scan goes on
  behind it. -/
  | next {start place : Nat} {token : List Char} {found : List (Nat × List Char)}
    (hstart : start ≤ place) (hskip : ∀ p, start ≤ p → p < place → ¬ BeginsAt G text p)
    (htoken : IsShortestAt G text place token)
    (hrest : Scan G text (place + token.length) found) :
    Scan G text start ((place, token) :: found)

theorem IsShortestAt.beginsAt (h : IsShortestAt G text place token) : BeginsAt G text place :=
  ⟨token, h.mem, h.isPrefix⟩

theorem IsShortestAt.unique {other : List Char} (h : IsShortestAt G text place token)
    (h' : IsShortestAt G text place other) : token = other :=
  (List.prefix_of_prefix_length_le h.isPrefix h'.isPrefix
    (h.length_le other h'.mem h'.isPrefix)).eq_of_length_le
      (h'.length_le token h.mem h.isPrefix)

/-- **A scan leaves no choice.** -/
theorem Scan.unique {found found' : List (Nat × List Char)} (h : Scan G text start found)
    (h' : Scan G text start found') : found = found' := by
  induction h generalizing found' with
  | done hnone =>
    cases h' with
    | done => rfl
    | next hstart' hskip' htoken' hrest' => exact absurd htoken'.beginsAt (hnone _ hstart')
  | @next start place token found hstart hskip htoken hrest ih =>
    cases h' with
    | done hnone' => exact absurd htoken.beginsAt (hnone' _ hstart)
    | @next _ place' token' found' hstart' hskip' htoken' hrest' =>
      obtain rfl : place = place' := by
        rcases Nat.lt_trichotomy place place' with hlt | heq | hlt
        · exact absurd htoken.beginsAt (hskip' _ hstart hlt)
        · exact heq
        · exact absurd htoken'.beginsAt (hskip _ hstart' hlt)
      obtain rfl : token = token' := htoken.unique htoken'
      rw [ih hrest']

/-- A scan may start at a place where nothing begins, or behind it. -/
theorem Scan.of_succ {found : List (Nat × List Char)} (h : Scan G text (start + 1) found)
    (hnone : ¬ BeginsAt G text start) : Scan G text start found := by
  have hfrom : ∀ p, start ≤ p → BeginsAt G text p → start + 1 ≤ p := by
    intro p hp hbegins
    rcases Nat.eq_or_lt_of_le hp with rfl | hlt
    · exact absurd hbegins hnone
    · exact hlt
  cases h with
  | done hnone' => exact .done fun p hp hbegins ↦ hnone' p (hfrom p hp hbegins) hbegins
  | next hstart hskip htoken hrest =>
    exact .next (Nat.le_of_succ_le hstart)
      (fun p hp hlt hbegins ↦ hskip p (hfrom p hp hbegins) hlt hbegins) htoken hrest

/-- Tokens that stand in order, each the shortest at its place, are the matches of a scan if no
other token begins outside them. -/
theorem Scan.of_covering {found : List (Nat × List Char)}
    (hsorted : found.Pairwise fun x y ↦ x.1 + x.2.length ≤ y.1) (hstart : ∀ x ∈ found, start ≤ x.1)
    (htoken : ∀ x ∈ found, IsShortestAt G text x.1 x.2)
    (hcover : ∀ p, start ≤ p → BeginsAt G text p → ∃ x ∈ found, x.1 ≤ p ∧ p < x.1 + x.2.length) :
    Scan G text start found := by
  induction found generalizing start with
  | nil =>
    refine .done fun p hp hbegins ↦ ?_
    obtain ⟨x, hx, -⟩ := hcover p hp hbegins
    exact absurd hx List.not_mem_nil
  | cons first found ih =>
    obtain ⟨hfirst, hsorted⟩ := List.pairwise_cons.1 hsorted
    refine .next (hstart first List.mem_cons_self) (fun p hp hlt hbegins ↦ ?_)
      (htoken first List.mem_cons_self)
      (ih hsorted hfirst (fun x hx ↦ htoken x (List.mem_cons_of_mem _ hx)) fun p hp hbegins ↦ ?_)
    · -- what covers the place would begin before the first of them
      obtain ⟨x, hx, hle, -⟩ := hcover p hp hbegins
      rcases List.mem_cons.1 hx with rfl | hx
      · omega
      · have := hfirst x hx
        omega
    · have := hstart first List.mem_cons_self
      obtain ⟨x, hx, hle, hlt⟩ := hcover p (by omega) hbegins
      rcases List.mem_cons.1 hx with rfl | hx
      · omega
      · exact ⟨x, hx, hle, hlt⟩

end Scan

/-! ### The scan for calls -/

/-- The token is written for the call. -/
def ReadsAs (token : List Char) (call : AssociationCall) : Prop :=
  ∃ c : CallForm, c.text = token ∧ c.call = call

theorem isShortestAt_of_associationCall? {text : List Char} {place : Nat} {c : CallForm}
    {rest : List Char} (htext : text.drop place = c.text ++ rest)
    (h : associationCall? (c.text ++ rest) = some (c.call, rest)) :
    IsShortestAt IsCallText text place c.text where
  mem := c.isCallText
  isPrefix := ⟨rest, htext.symm⟩
  length_le _ hother hfront := length_le_of_associationCall? h hother (htext ▸ hfront)

theorem lt_length_of_beginsAt {text : List Char} {place : Nat}
    (h : BeginsAt IsCallText text place) : place < text.length := by
  obtain ⟨token, htoken, hfront⟩ := h
  by_contra hlt
  rw [List.drop_eq_nil_of_le (Nat.le_of_not_lt hlt)] at hfront
  exact htoken.ne_nil (List.prefix_nil.1 hfront)

/-- **The search for calls is a scan**, from any place of a text on. -/
theorem exists_scan (text : List Char) (place : Nat) (rest : List Char)
    (hrest : text.drop place = rest) :
    ∃ found, Scan IsCallText text place found ∧
      List.Forall₂ (fun m x ↦ m.1 = x.1 ∧ ReadsAs m.2 x.2) found
        (associationCalls place rest) := by
  fun_induction associationCalls place rest with
  | case1 place =>
    have hend : text.length ≤ place := List.drop_eq_nil_iff.1 hrest
    exact ⟨[], .done fun p hp hbegins ↦ absurd (lt_length_of_beginsAt hbegins)
      (Nat.not_lt_of_le (Nat.le_trans hend hp)), .nil⟩
  | case2 place c rest call after hread ih =>
    obtain ⟨form, rfl, htext⟩ := exists_callForm_of_associationCall? hread
    have hlength : rest.length + 1 - after.length = form.text.length := by
      have := congrArg List.length htext
      simp only [List.length_cons, List.length_append] at this
      omega
    rw [htext] at hrest hread
    rw [hlength] at ih ⊢
    obtain ⟨found, hscan, hfound⟩ := ih (by rw [← List.drop_drop, hrest, List.drop_left])
    exact ⟨(place, form.text) :: found,
      .next (Nat.le_refl _) (fun p hp hlt ↦ absurd hp (Nat.not_le_of_lt hlt))
        (isShortestAt_of_associationCall? hrest hread) hscan,
      .cons ⟨rfl, form, rfl, rfl⟩ hfound⟩
  | case3 place c rest hread ih =>
    have hbehind : text.drop (place + 1) = rest := by
      rw [← List.drop_drop, hrest, List.drop_one, List.tail_cons]
    obtain ⟨found, hscan, hfound⟩ := ih hbehind
    refine ⟨found, hscan.of_succ ?_, hfound⟩
    rintro ⟨token, htoken, hfront⟩
    exact associationCall?_eq_none_iff.1 hread token htoken (hrest ▸ hfront)

/-! ### The declarations -/

/-- The association is the one that a call declares, apart from its modifiers. However the token is
taken apart as a call, its front is the same (`CallForm.head_call_eq`). What `this` stands for
depends on the classes around the call. -/
structure IsDeclaredBy (a : Association) (token : List Char) : Prop where
  source_eq : ∀ c : CallForm, c.text = token → c.head.receiver ≠ selfName →
    a.source = String.ofList c.head.receiver
  kind_eq : ∀ c : CallForm, c.text = token → a.kind = c.head.kind
  target_eq : ∀ c : CallForm, c.text = token → a.target = String.ofList c.head.target

theorem isDeclaredBy_declaration (headers : List (Nat × List Char)) (position : Nat)
    {call : AssociationCall} {token : List Char} (h : ReadsAs token call) :
    IsDeclaredBy (declaration headers position call) token := by
  obtain ⟨c, rfl, rfl⟩ := h
  refine ⟨fun c' hc' hself ↦ ?_, fun c' hc' ↦ ?_, fun c' hc' ↦ ?_⟩
  · have hreceiver : c'.head.receiver = c.head.receiver :=
      congrArg AssociationCall.receiver (CallForm.head_call_eq hc')
    rw [hreceiver] at hself ⊢
    exact congrArg String.ofList (if_neg hself)
  · exact (congrArg AssociationCall.kind (CallForm.head_call_eq hc')).symm
  · exact congrArg (fun call ↦ String.ofList call.target) (CallForm.head_call_eq hc').symm

/-- **A text declares what a scan for calls finds in it**: one association for each match, in their
order, and nothing else. -/
theorem extractAssociations_scan (text : String) :
    ∃ found, (∀ other, Scan IsCallText text.toList 0 other ↔ other = found) ∧
      List.Forall₂ (fun a m ↦ IsDeclaredBy a m.2) (extractAssociations text) found := by
  obtain ⟨found, hscan, hfound⟩ := exists_scan text.toList 0 text.toList rfl
  refine ⟨found, fun other ↦ ⟨fun h ↦ h.unique hscan, fun h ↦ h ▸ hscan⟩, ?_⟩
  rw [extractAssociations, findAssociations, List.forall₂_map_left_iff]
  exact hfound.flip.imp fun _ _ h ↦ isDeclaredBy_declaration _ _ h.2

end SchemaDiagram.Source
