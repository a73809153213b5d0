import Mathlib.Data.List.Infix
import SchemaDiagram.Proofs.Source.Association
import SchemaDiagram.Proofs.Source.CallReading
import SchemaDiagram.Proofs.Text.Nesting

/-!
# Statements one behind another

What a text declares is not always declared by the statements it is put together from, because
options may go on behind the semicolon of their statement. `extractAssociations_append_iff` says
exactly when a text that ends with a semicolon can have any text behind it without a declaration of
either being lost or changed: when the options of every call in it end in it (`OptionsClosed`).

## The two directions

* If all options end, the search passes the semicolon in the state in which it starts a text, so
  what it found before is found again, and then what a search in the other text finds
  (`exists_callsOf_append`).
* If some options do not end, the first of them that the search meets take in whatever stands
  behind the semicolon, up to an end for them (`exists_callsOf_opened`). The search does meet them:
  no call that it finds before can go over them, for options that are opened within a call end with
  it (`exists_end_of_endsCall`). A declaration in the other text is then lost.
-/

namespace SchemaDiagram.Source

open Text

/-! ### Calls in order -/

/-- The calls that are found in a text, in order. -/
def callsOf (text : List Char) : List AssociationCall := (associationCalls 0 text).map Prod.snd

/-- Which calls are found does not depend on the place of the text. -/
theorem map_snd_associationCalls (position : Nat) (text : List Char) :
    (associationCalls position text).map Prod.snd = callsOf text := by
  have h (first second : Nat) : (associationCalls first text).map Prod.snd =
      (associationCalls second text).map Prod.snd := by
    fun_induction associationCalls first text generalizing second with
    | case1 => rw [associationCalls]
    | case2 first c rest call after hcall ih =>
      obtain ⟨behind, hcons⟩ := associationCalls_eq_cons hcall second
      rw [hcons, List.map_cons, List.map_cons, ih behind]
    | case3 first c rest hnone ih =>
      rw [associationCalls.eq_2]
      split
      · next hcall => exact absurd (hnone.symm.trans hcall).symm (Option.some_ne_none _)
      · exact ih (second + 1)
  exact h position 0

@[simp] theorem callsOf_nil : callsOf [] = [] := by
  rw [callsOf, associationCalls]
  rfl

theorem callsOf_eq_cons {text rest : List Char} {call : AssociationCall}
    (h : associationCall? text = some (call, rest)) : callsOf text = call :: callsOf rest := by
  obtain ⟨behind, hcons⟩ := associationCalls_eq_cons h 0
  rw [callsOf, hcons, List.map_cons, map_snd_associationCalls]

theorem callsOf_cons {c : Char} {text : List Char} (h : associationCall? (c :: text) = none) :
    callsOf (c :: text) = callsOf text := by
  rw [callsOf, associationCalls]
  split
  · next hcall => exact absurd (h.symm.trans hcall).symm (Option.some_ne_none _)
  · exact map_snd_associationCalls 1 text

theorem callsOf_gap (g : Gap) (text : List Char) : callsOf (g.text ++ text) = callsOf text := by
  rw [callsOf, associationCalls_append g.isIdentifierStart_of_mem, map_snd_associationCalls]

/-! ### Texts in which all options end -/

/-- Wherever a call opens options in braces, they end within the text: behind the opening brace
stands a closing one that a closing parenthesis follows. -/
def OptionsClosed (text : List Char) : Prop :=
  ∀ before place, text = before ++ place → ∀ body, openedOptions? place = some body →
    (throughBraceParenthesis? body).isSome = true

theorem OptionsClosed.of_append (before : List Char) {text : List Char}
    (h : OptionsClosed (before ++ text)) : OptionsClosed text := fun front place heq ↦
  h (before ++ front) place (by rw [heq, List.append_assoc])

/-- **Behind a text in which all options end, the search goes on as if it started there.** -/
theorem exists_callsOf_append {front : List Char} {g : Gap}
    (h : OptionsClosed (front ++ ';' :: g.text)) :
    ∃ found, ∀ behind, callsOf (front ++ ';' :: behind) = found ++ callsOf behind := by
  induction hn : front.length using Nat.strongRecOn generalizing front with
  | ind n ih =>
    cases reading front with
    | nothing hread =>
      cases front with
      | nil => exact ⟨[], fun behind ↦ callsOf_cons (hread behind)⟩
      | cons c front =>
        obtain ⟨found, hfound⟩ := ih front.length (by rw [← hn]; exact Nat.lt_succ_self _)
          (OptionsClosed.of_append [c] h) rfl
        exact ⟨found, fun behind ↦ (callsOf_cons (hread behind)).trans (hfound behind)⟩
    | call call token rest hfront hends hread =>
      subst hfront
      have hlt : rest.length < n := by
        have := length_lt_of_associationCall? (hread [])
        simp only [List.length_append] at this hn
        omega
      rw [List.append_assoc] at h
      obtain ⟨found, hfound⟩ := ih rest.length hlt (h.of_append token) rfl
      exact ⟨call :: found, fun behind ↦ by
        rw [callsOf_eq_cons (hread behind), hfound, List.cons_append]⟩
    | opened call body hopened hread hbody =>
      -- no brace stands behind the semicolon, so these options do not end
      have hsome := h [] _ rfl _ (hopened g.text)
      rw [hbody, throughBraceParenthesis?_gap] at hsome
      exact absurd hsome Bool.false_ne_true

/-! ### Texts in which some options do not end -/

/-- A closing parenthesis stands behind the brace that opens the options of a call, not before
it. -/
theorem exists_of_parenthesis {before behind head body : List Char}
    (hhead : ∀ c ∈ head, IsHeadChar c ∨ c = ',')
    (h : before ++ ')' :: behind = head ++ '{' :: body) :
    ∃ mid, before = head ++ '{' :: mid ∧ body = mid ++ ')' :: behind := by
  have hparen : ')' ∉ head := fun hmem ↦ absurd (hhead ')' hmem) (by decide)
  rcases List.append_eq_append_iff.1 h with ⟨mid, rfl, hmid⟩ | ⟨mid, rfl, hmid⟩
  · rcases mid with - | ⟨c, mid⟩
    · exact absurd (List.cons.inj hmid).1 (by decide)
    · obtain rfl : ')' = c := (List.cons.inj hmid).1
      exact absurd (List.mem_append_right before List.mem_cons_self) hparen
  · rcases mid with - | ⟨c, mid⟩
    · exact absurd (List.cons.inj hmid).1 (by decide)
    · obtain ⟨rfl, rfl⟩ := List.cons.inj hmid
      exact ⟨mid, rfl, rfl⟩

/-- **Options that are opened within a call end with the call at the latest**: the parenthesis that
closes the call stands behind the opening brace, and the call has a brace in front of it. -/
theorem exists_end_of_endsCall {before inner rest head body : List Char}
    (hends : EndsCall (before ++ inner)) (hinner : inner ≠ [])
    (hhead : ∀ c ∈ head, IsHeadChar c ∨ c = ',') (h : inner ++ rest = head ++ '{' :: body) :
    ∃ (front : List Char) (g : Gap) (behind : List Char),
      body = front ++ '}' :: (g.text ++ ')' :: behind) := by
  obtain ⟨inside, htoken, hinside⟩ := hends
  obtain ⟨init, last, rfl⟩ := (List.eq_nil_or_concat' inner).resolve_left hinner
  rw [← List.append_assoc] at htoken
  obtain ⟨rfl, hlast⟩ := List.append_inj' htoken rfl
  obtain rfl : last = ')' := List.singleton_inj.1 hlast
  rw [List.append_assoc, List.singleton_append] at h
  obtain ⟨mid, rfl, rfl⟩ := exists_of_parenthesis hhead h
  rcases hinside with ⟨outer, g, houter⟩ | hnone
  · rw [← List.append_assoc] at houter
    rcases List.append_eq_append_iff.1 houter with ⟨more, -, hmore⟩ | ⟨more, -, hmore⟩
    · rcases more with - | ⟨c, more⟩
      · exact absurd (List.cons.inj hmore).1 (by decide)
      · obtain ⟨-, rfl⟩ := List.cons.inj hmore
        exact ⟨more, g, rest, by simp⟩
    · -- behind the last closing brace of the call there is only white space
      have hmem : '{' ∈ '}' :: g.text := by
        rw [hmore]
        exact List.mem_append_right more List.mem_cons_self
      rcases List.mem_cons.1 hmem with heq | hmem
      · exact absurd heq (by decide)
      · exact absurd hmem (g.not_mem (by decide))
  · refine absurd ?_ hnone
    exact List.mem_append_right before (List.mem_append_right head List.mem_cons_self)

/-- A place at which options are opened that do not end before the semicolon behind it. -/
structure OpenedAt (place body : List Char) : Prop where
  exists_head : ∃ head, place = head ++ '{' :: body ∧ ∀ c ∈ head, IsHeadChar c ∨ c = ','
  openedOptions? : ∀ behind,
    Source.openedOptions? (place ++ ';' :: behind) = some (body ++ ';' :: behind)
  throughBraceParenthesis? : ∀ behind,
    Source.throughBraceParenthesis? (body ++ ';' :: behind) =
      (Source.throughBraceParenthesis? behind).map fun x ↦ (body ++ ';' :: x.1, x.2)

/-- Options that are opened within a call end with it, so those that do not end are opened behind
the call. -/
theorem OpenedAt.eq_nil_of_endsCall {before inner rest place body : List Char}
    (h : OpenedAt place body) (hends : EndsCall (before ++ inner))
    (hplace : place = inner ++ rest) : inner = [] := by
  by_contra hinner
  obtain ⟨head, hhead, hheadChar⟩ := h.exists_head
  obtain ⟨options, g, behind, rfl⟩ :=
    exists_end_of_endsCall hends hinner hheadChar (hplace.symm.trans hhead)
  have hsome : (Source.throughBraceParenthesis?
      (options ++ '}' :: (g.text ++ ')' :: behind) ++ ';' :: [])).isSome = true :=
    isSome_throughBraceParenthesis?_iff.2 ⟨options, g, behind ++ [';'], by simp⟩
  rw [h.throughBraceParenthesis? []] at hsome
  exact absurd hsome Bool.false_ne_true

/-- If some options of a text do not end, they are opened before its last semicolon. -/
theorem exists_openedAt {front : List Char} {g : Gap}
    (h : ¬OptionsClosed (front ++ ';' :: g.text)) :
    ∃ before place body, front = before ++ place ∧ OpenedAt place body := by
  simp only [OptionsClosed, not_forall] at h
  obtain ⟨before, tail, heq, body, hopened, hnone⟩ := h
  rcases List.append_eq_append_iff.1 heq with ⟨mid, -, htail⟩ | ⟨place, rfl, rfl⟩
  · -- no call starts with a semicolon or with white space
    have hstart : ∀ c ∈ tail, isIdentifierStart c = false := by
      intro c hc
      have hmem : c ∈ ';' :: g.text := by
        rw [htail]
        exact List.mem_append_right mid hc
      rcases List.mem_cons.1 hmem with rfl | hmem
      · decide
      · exact g.isIdentifierStart_of_mem c hmem
    have hhead : callHead? tail = none := by
      cases tail with
      | nil => rfl
      | cons c tail => simp [callHead?, identifier?, hstart c List.mem_cons_self]
    rw [openedOptions?, hhead] at hopened
    exact absurd hopened.symm (Option.some_ne_none body)
  · rcases openedOptions?_semicolon place with hnever | ⟨head, body', hplace, hhead, hsome⟩
    · exact absurd ((hnever g.text).symm.trans hopened).symm (Option.some_ne_none body)
    · obtain rfl : body' ++ ';' :: g.text = body :=
        Option.some.inj ((hsome g.text).symm.trans hopened)
      rcases throughBraceParenthesis?_semicolon body' with ⟨options, g', rest, -, hends⟩ | hgoes
      · exact absurd (by rw [hends]; rfl) hnone
      · exact ⟨before, place, body', rfl, ⟨head, hplace, hhead⟩, hsome, hgoes⟩

theorem associationCall?_of_openedOptions? {text body : List Char}
    (h : openedOptions? text = some body) :
    (associationCall? text).isSome = (throughBraceParenthesis? body).isSome := by
  obtain ⟨⟨call, rest⟩, hcall, h⟩ := Option.bind_eq_some_iff.1 h
  obtain ⟨rest', hcomma, hbrace⟩ := Option.bind_eq_some_iff.1 h
  have hskip : skipBlanks rest' = '{' :: body := expect_eq_some_iff.1 hbrace
  have hclosing : closing? rest = throughBraceParenthesis? body := by
    simp only [closing?, show expectToken ',' rest = some rest' from hcomma, options?, hskip,
      if_true]
  rw [associationCall?_eq, hcall, Option.bind_some, Option.isSome_map, hclosing]

/-- **Options that do not end take what stands behind the semicolon**, up to an end for them. The
search finds the same calls as far as the one with those options, whatever comes. -/
theorem exists_callsOf_opened {front before place body : List Char}
    (hfront : front = before ++ place) (hopen : OpenedAt place body) :
    ∃ (found : List AssociationCall) (call : AssociationCall), ∀ behind options after,
      throughBraceParenthesis? behind = some (options, after) →
        ∃ taken, callsOf (front ++ ';' :: behind) =
          found ++ { call with options := taken } :: callsOf after := by
  induction hn : front.length using Nat.strongRecOn generalizing front before with
  | ind n ih =>
    cases reading front with
    | nothing hread =>
      cases before with
      | nil =>
        -- the call would end right behind the semicolon
        have hsome := associationCall?_of_openedOptions? (hopen.openedOptions? ['}', ')'])
        have hend : throughBraceParenthesis? ['}', ')'] = some ([], []) := by decide
        rw [← List.nil_append place, ← hfront, hread, hopen.throughBraceParenthesis?, hend] at hsome
        exact absurd hsome Bool.false_ne_true
      | cons c before =>
        subst hfront
        obtain ⟨found, call, hfound⟩ := ih (before ++ place).length
          (by rw [← hn]; exact Nat.lt_succ_self _) rfl rfl
        refine ⟨found, call, fun behind options after hafter ↦ ?_⟩
        obtain ⟨taken, htaken⟩ := hfound behind options after hafter
        exact ⟨taken, (callsOf_cons (hread behind)).trans htaken⟩
    | call first token rest htoken hends hread =>
      have hlt : rest.length < n := by
        have := length_lt_of_associationCall? (hread [])
        simp only [htoken, List.length_append] at this hn
        omega
      have hlater (mid : List Char) (hrest : rest = mid ++ place) :
          ∃ (found : List AssociationCall) (call : AssociationCall), ∀ behind options after,
            throughBraceParenthesis? behind = some (options, after) →
              ∃ taken, callsOf (front ++ ';' :: behind) =
                found ++ { call with options := taken } :: callsOf after := by
        obtain ⟨found, call, hfound⟩ := ih rest.length hlt hrest rfl
        refine ⟨first :: found, call, fun behind options after hafter ↦ ?_⟩
        obtain ⟨taken, htaken⟩ := hfound behind options after hafter
        exact ⟨taken, by rw [callsOf_eq_cons (hread behind), htaken, List.cons_append]⟩
      rcases List.append_eq_append_iff.1 (htoken.symm.trans hfront) with
        ⟨mid, -, hrest⟩ | ⟨inner, rfl, hplace⟩
      · exact hlater mid hrest
      · obtain rfl := hopen.eq_nil_of_endsCall hends hplace
        exact hlater [] hplace.symm
    | opened call body' hopened hread hbody =>
      refine ⟨[], call, fun behind options after hafter ↦ ⟨body' ++ ';' :: options, ?_⟩⟩
      have hcall : associationCall? (front ++ ';' :: behind) =
          some ({ call with options := body' ++ ';' :: options }, after) := by
        rw [hread, hbody, hafter]
        rfl
      rw [callsOf_eq_cons hcall, List.nil_append]

/-! ### What is declared -/

/-- A text ends with a semicolon, behind which only white space stands. -/
def EndsWithSemicolon (text : String) : Prop :=
  ∃ (front : List Char) (g : Gap), text.toList = front ++ ';' :: g.text

/-- No association of a text is declared on `this`. -/
def DeclaresByName (text : String) : Prop :=
  ∀ call ∈ callsOf text.toList, call.receiver ≠ selfName

theorem extractAssociations_eq_map {text : String} (h : DeclaresByName text) :
    extractAssociations text = (callsOf text.toList).map (declaration [] 0) :=
  findAssociations_eq_map h

/-- The targets of the declarations are those of the calls. -/
theorem map_target_extractAssociations (text : String) :
    (extractAssociations text).map Association.target =
      (callsOf text.toList).map fun call ↦ String.ofList call.target := by
  rw [extractAssociations, findAssociations, callsOf, List.map_map, List.map_map]
  rfl

/-- A call with empty options, on whose target nothing else depends. -/
def plainCall (target : List Char) (h : IsIdentifier target) : WrittenCall :=
  { receiver := ['A'], beforeDot := .none, afterDot := .none, kind := .hasMany,
    beforeOpening := .none, afterOpening := .none, qualifiers := [], target := target,
    argument := some ⟨.none, .none, ⟨[], none⟩⟩, beforeClosing := .none,
    isIdentifier_receiver := ⟨⟨'A', [], rfl, by decide⟩, List.forall_mem_singleton.2 (by decide)⟩
    isIdentifier_target := h }

theorem callsOf_plainCall {target : List Char} (h : IsIdentifier target) :
    callsOf (plainCall target h).text = [(plainCall target h).call] := by
  have hread := (plainCall target h).associationCall?_text []
  rw [List.append_nil] at hread
  rw [callsOf_eq_cons hread, callsOf_nil]

/-- Options that are still open end at the end of the plain call. -/
theorem throughBraceParenthesis?_plainCall {target : List Char} (h : IsIdentifier target)
    (g : Gap) :
    ∃ options, throughBraceParenthesis? (g.text ++ (plainCall target h).text) =
      some (options, []) := by
  have htext : g.text ++ (plainCall target h).text =
      (g.text ++ ("A.hasMany(".toList ++ (target ++ [',', '{']))) ++ '}' :: [')'] := by
    simp [plainCall, WrittenCall.text, WrittenCall.pathText, WrittenCall.closingText,
      OptionsArgument.text, WrittenOptions.text, WrittenOptions.parts, Gap.none,
      AssociationKind.keyword]
  have htarget : '}' ∉ target := fun hmem ↦ absurd (h.isWordChar_of_mem '}' hmem) (by decide)
  have hbrace : '}' ∉ g.text ++ ("A.hasMany(".toList ++ (target ++ [',', '{'])) := by
    simp [g.not_mem (show isBlank '}' = false by decide), htarget]
  have hend : throughBraceParenthesis? ('}' :: [')']) = some ([], []) := by decide
  rw [htext]
  exact ⟨_, (onlyBlanksAfterBraces_of_not_mem hbrace).throughBraceParenthesis? (by decide)
    (by decide) hend⟩

/-- A name of any length. -/
theorem isIdentifier_replicate (n : Nat) : IsIdentifier (List.replicate (n + 1) 'B') where
  start := ⟨'B', List.replicate n 'B', rfl, by decide⟩
  isWordChar_of_mem := fun c hc ↦ by
    rw [List.eq_of_mem_replicate hc]
    decide

theorem toList_append_of_toList_eq {text : String} {front : List Char} {g : Gap}
    (htext : text.toList = front ++ ';' :: g.text) (other : String) :
    (text ++ other).toList = front ++ ';' :: (g.text ++ other.toList) := by
  rw [String.toList_append, htext, List.append_assoc, List.cons_append]

/-- Behind a text in which all options end, nothing is lost. -/
theorem extractAssociations_append_of_optionsClosed {text other : String}
    (hend : EndsWithSemicolon text) (hname : DeclaresByName text) (hother : DeclaresByName other)
    (hclosed : OptionsClosed text.toList) :
    extractAssociations (text ++ other) =
      extractAssociations text ++ extractAssociations other := by
  obtain ⟨front, g, htext⟩ := hend
  rw [htext] at hclosed
  obtain ⟨found, hfound⟩ := exists_callsOf_append hclosed
  have hfirst : callsOf text.toList = found := by
    have hgap : callsOf g.text = [] := by
      rw [← List.append_nil g.text, callsOf_gap, callsOf_nil]
    rw [htext, hfound, hgap, List.append_nil]
  have hboth : callsOf (text ++ other).toList = callsOf text.toList ++ callsOf other.toList := by
    rw [toList_append_of_toList_eq htext, hfound, callsOf_gap, hfirst]
  have hbothName : DeclaresByName (text ++ other) := by
    intro call hmem
    rw [hboth] at hmem
    exact (List.mem_append.1 hmem).elim (hname call) (hother call)
  rw [extractAssociations_eq_map hbothName, extractAssociations_eq_map hname,
    extractAssociations_eq_map hother, hboth, List.map_append]

/-- Behind a text in which some options do not end, a declaration can be lost: one whose target is
not the target of the call with those options. -/
theorem exists_extractAssociations_append_ne {text : String} (hend : EndsWithSemicolon text)
    (hopen : ¬OptionsClosed text.toList) :
    ∃ other, DeclaresByName other ∧ extractAssociations (text ++ other) ≠
      extractAssociations text ++ extractAssociations other := by
  obtain ⟨front, g, htext⟩ := hend
  rw [htext] at hopen
  obtain ⟨before, place, body, hfront, hplace⟩ := exists_openedAt hopen
  obtain ⟨found, call, hfound⟩ := exists_callsOf_opened hfront hplace
  -- a longer name is another name
  have htarget := isIdentifier_replicate call.target.length
  obtain ⟨options, hoptions⟩ := throughBraceParenthesis?_plainCall htarget g
  obtain ⟨taken, htaken⟩ := hfound _ options [] hoptions
  let other := String.ofList (plainCall _ htarget).text
  have hother : callsOf other.toList = [(plainCall _ htarget).call] := by
    rw [String.toList_ofList, callsOf_plainCall]
  refine ⟨other, ?_, ?_⟩
  · intro call hmem
    rw [hother, List.mem_singleton] at hmem
    rw [hmem]
    show ['A'] ≠ selfName
    decide
  · -- the last of the two lists of targets would be the same
    intro hlaw
    have htargets := congrArg (List.map Association.target) hlaw
    rw [List.map_append, map_target_extractAssociations, map_target_extractAssociations,
      map_target_extractAssociations, hother, toList_append_of_toList_eq htext,
      String.toList_ofList, htaken, callsOf_nil, List.map_append] at htargets
    have hlast := List.singleton_inj.1 (List.append_inj' htargets rfl).2
    have hlength := congrArg List.length (String.ofList_inj.1 hlast)
    simp [plainCall, WrittenCall.call] at hlength

/-- **When nothing is lost between two texts.** Take a text that ends with a semicolon. What it
declares and what another text declares are together what the two declare one behind the other,
whatever the other text is, exactly if the options of every call in the first text end in it. -/
theorem extractAssociations_append_iff {text : String} (hend : EndsWithSemicolon text)
    (hname : DeclaresByName text) :
    (∀ other, DeclaresByName other → extractAssociations (text ++ other) =
      extractAssociations text ++ extractAssociations other) ↔ OptionsClosed text.toList := by
  constructor
  · intro hlaw
    by_contra hopen
    obtain ⟨other, hother, hne⟩ := exists_extractAssociations_append_ne hend hopen
    exact hne (hlaw other hother)
  · intro hclosed other hother
    exact extractAssociations_append_of_optionsClosed hend hname hother hclosed

/-- The options of a text can be checked one tail of the text after the other. -/
theorem optionsClosed_of_tails {text : List Char}
    (h : ∀ tail ∈ text.tails, (openedOptions? tail).all
      (fun body ↦ (throughBraceParenthesis? body).isSome) = true) : OptionsClosed text := by
  intro before place heq body hopened
  have hplace := h place ((List.mem_tails _ _).2 ⟨before, heq.symm⟩)
  rwa [hopened, Option.all_some] at hplace

/-- A statement whose options hold other braces and a parenthesis. -/
def postsStatement : String := "User.hasMany(Post, \x7b hooks: f(\x7b\x7d, 1), as: 'posts' \x7d);\n"

theorem extractAssociations_append_postsStatement :
    EndsWithSemicolon postsStatement ∧ DeclaresByName postsStatement ∧
      OptionsClosed postsStatement.toList ∧
      ∀ other, DeclaresByName other → extractAssociations (postsStatement ++ other) =
        extractAssociations postsStatement ++ extractAssociations other := by
  have hend : EndsWithSemicolon postsStatement :=
    ⟨postsStatement.toList.dropLast.dropLast, ⟨['\n'], List.forall_mem_singleton.2 (by decide)⟩,
      by decide +kernel⟩
  have hname : DeclaresByName postsStatement := by
    show ∀ call ∈ callsOf _, _
    decide +kernel
  have hclosed : OptionsClosed postsStatement.toList := optionsClosed_of_tails (by decide +kernel)
  exact ⟨hend, hname, hclosed, (extractAssociations_append_iff hend hname).2 hclosed⟩

/-- A statement with a comma behind the options. -/
def commaStatement : String := "User.hasMany(Post, \x7b as: 'posts' \x7d,);\n"

/-- A statement that may stand behind it. -/
def tagsStatement : String := "Post.hasMany(Tag, \x7b as: 'tags' \x7d);\n"

/-- **A comma behind the options keeps them open.** Both statements are balanced and declare by
name, yet the options of the first take in the second, and its declaration is lost. -/
theorem extractAssociations_append_commaStatement :
    Balanced commaStatement.toList ∧ EndsWithSemicolon commaStatement ∧
      DeclaresByName commaStatement ∧ DeclaresByName tagsStatement ∧
      extractAssociations (commaStatement ++ tagsStatement) ≠
        extractAssociations commaStatement ++ extractAssociations tagsStatement ∧
      extractAssociations commaStatement ++ extractAssociations tagsStatement =
        [{ source := "Post", target := "Tag", kind := .hasMany, aliasName := some "tags" }] ∧
      extractAssociations (commaStatement ++ tagsStatement) =
        [{ source := "User", target := "Post", kind := .hasMany, aliasName := some "posts" }] := by
  refine ⟨⟨?_, by decide +kernel, by decide +kernel⟩, ?_, ?_, ?_, by decide +kernel,
    by decide +kernel, by decide +kernel⟩
  · show ∀ v ∈ Nesting.visits {} _, _
    decide +kernel
  · exact ⟨commaStatement.toList.dropLast.dropLast,
      ⟨['\n'], List.forall_mem_singleton.2 (by decide)⟩, by decide +kernel⟩
  · show ∀ call ∈ callsOf _, _
    decide +kernel
  · show ∀ call ∈ callsOf _, _
    decide +kernel

end SchemaDiagram.Source
