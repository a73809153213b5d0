import Mathlib.Data.List.Infix
import SchemaDiagram.Proofs.Text.Token
import SchemaDiagram.Text.Comment

/-!
# Written texts and their comments

A source text as it is written: runs of plain characters, closed string literals, and comments of
both kinds, one behind another. Cutting the text undoes writing it (`segments_concat`), so removing
the comments leaves exactly the other pieces (`stripComments_concat`).

## What the cut rests on

* A literal, and a block comment, ends where it is written to end (`splitLiteral_append`,
  `splitBlockComment_append`), whatever stands behind it.
* Of a run and of a line comment the text behind decides where they end, so a written text asks
  something of the neighbours of its pieces (`Fits`). A slash at the end of a run must not meet
  another slash or a star.

## Why removing comments twice changes nothing

Only the removal of a piece between two others could bring a comment opener together, and a run
whose last character is a slash has no comment behind it. So what is left still fits
(`Fits.withoutComments`), and it has no comments.
-/

namespace SchemaDiagram.Text

/-! ### Literals and block comments -/

/-- What can stand between two quotes of one kind. -/
inductive LiteralBody (quote : Char) : List Char → Prop where
  /-- Nothing. -/
  | nil : LiteralBody quote []
  /-- A backslash and the character that it escapes, whichever that is. -/
  | escape (c : Char) {body : List Char} (h : LiteralBody quote body) :
      LiteralBody quote ('\\' :: c :: body)
  /-- A character that neither ends the literal nor escapes. A bare line feed needs backticks. -/
  | char {c : Char} {body : List Char} (hquote : c ≠ quote) (hescape : c ≠ '\\')
      (hbreak : c = '\n' → quote = '\x60') (h : LiteralBody quote body) :
      LiteralBody quote (c :: body)

/-- A literal ends at its closing quote. -/
theorem splitLiteral_append {quote : Char} {body : List Char} (hquote : isQuote quote = true)
    (h : LiteralBody quote body) (rest : List Char) :
    splitLiteral quote (body ++ quote :: rest) = some (body, rest) := by
  have hescape : quote ≠ '\\' := by
    rintro rfl
    exact absurd hquote (by decide)
  induction h with
  | nil =>
    rw [List.nil_append, splitLiteral.eq_3 _ _ _ fun _ _ heq _ ↦ hescape heq, if_pos rfl]
  | escape c h ih =>
    rw [List.cons_append, List.cons_append, splitLiteral, ih]
    rfl
  | char hne hescape hbreak h ih =>
    have hgo : ¬(_ = '\\' ∨ (_ = '\n' ∧ quote ≠ '\x60')) :=
      not_or.2 ⟨hescape, fun hfeed ↦ hfeed.2 (hbreak hfeed.1)⟩
    rw [List.cons_append, splitLiteral.eq_3 _ _ _ fun _ _ heq _ ↦ hescape heq, if_neg hne,
      if_neg hgo, ih]
    rfl

/-- The two characters that end a block comment. -/
def closingMark : List Char := ['*', '/']

/-- A block comment ends at its closing mark. -/
theorem splitBlockComment_append {body : List Char} (h : ¬closingMark <:+: body)
    (rest : List Char) :
    splitBlockComment (body ++ '*' :: '/' :: rest) = some (body, rest) := by
  induction body with
  | nil => rfl
  | cons c body ih =>
    have hbody : ¬closingMark <:+: body := fun hinfix ↦ h (List.infix_cons hinfix)
    -- the body has no closing mark at its front, and its end does not make one with the mark
    have hopen : ∀ after, c = '*' → body ++ '*' :: '/' :: rest = '/' :: after → False := by
      rintro after rfl heq
      rcases body with - | ⟨d, body⟩
      · exact absurd (List.cons.inj heq).1 (by decide)
      · obtain rfl : d = '/' := (List.cons.inj heq).1
        exact h ⟨[], body, rfl⟩
    rw [List.cons_append, splitBlockComment.eq_2 _ _ hopen, ih hbody]
    rfl

/-! ### Pieces -/

/-- A piece of a text as it is written. -/
inductive Piece where
  /-- A run of characters outside literals and comments. -/
  | run (text : List Char) (isQuote_of_mem : ∀ c ∈ text, isQuote c = false)
  /-- A closed string literal. -/
  | literal (quote : Char) (body : List Char) (isQuote_quote : isQuote quote = true)
      (literalBody : LiteralBody quote body)
  /-- A comment up to the end of its line. -/
  | lineComment (body : List Char) (inLine_of_mem : ∀ c ∈ body, inLine c = true)
  /-- A comment between its two marks. -/
  | blockComment (body : List Char) (noClosingMark : ¬closingMark <:+: body)

namespace Piece

/-- The segments that a piece is made of: one for each character of a run. -/
def segments : Piece → List Segment
  | run text _ => text.map .plain
  | literal quote body _ _ => [.literal quote body]
  | lineComment body _ => [.lineComment body]
  | blockComment body _ => [.blockComment body]

/-- The piece as it is written. -/
def text (p : Piece) : List Char := p.segments.flatMap Segment.text

/-- Whether the piece is a comment. -/
def isComment : Piece → Bool
  | lineComment .. | blockComment .. => true
  | run .. | literal .. => false

/-- Whether the piece is a block comment. -/
def isBlockComment : Piece → Bool
  | blockComment .. => true
  | run .. | literal .. | lineComment .. => false

/-- What a piece asks of the text behind it. A slash of a run opens no comment, and a line comment
goes to the end of its line. -/
def EndsBefore : Piece → List Char → Prop
  | run text _, rest => ∀ before behind, text = before ++ '/' :: behind →
      ∀ c ∈ (behind ++ rest).head?, c ≠ '/' ∧ c ≠ '*'
  | lineComment _ _, rest => ∀ c ∈ rest.head?, c = '\r' ∨ c = '\n'
  | literal .., _ | blockComment .., _ => True

/-- The characters of a run. -/
theorem text_run (text : List Char) (h : ∀ c ∈ text, isQuote c = false) :
    (run text h).text = text := by
  simp [Piece.text, segments, List.flatMap_map, Segment.text]

/-- All segments of a comment are comments, and none of any other piece is. -/
theorem isComment_of_mem_segments {p : Piece} {s : Segment} (h : s ∈ p.segments) :
    s.isComment = p.isComment := by
  cases p with
  | run text _ =>
    obtain ⟨c, -, rfl⟩ := List.mem_map.1 h
    rfl
  | literal quote body _ _ =>
    obtain rfl := List.mem_singleton.1 h
    rfl
  | lineComment body _ =>
    obtain rfl := List.mem_singleton.1 h
    rfl
  | blockComment body _ =>
    obtain rfl := List.mem_singleton.1 h
    rfl

end Piece

/-- Pieces one behind another. -/
def concat (pieces : List Piece) : List Char := pieces.flatMap Piece.text

theorem concat_cons (p : Piece) (pieces : List Piece) :
    concat (p :: pieces) = p.text ++ concat pieces :=
  List.flatMap_cons

/-- Each piece ends where the text behind it begins. -/
def Fits : List Piece → Prop
  | [] => True
  | p :: pieces => p.EndsBefore (concat pieces) ∧ Fits pieces

/-! ### Cutting undoes writing -/

theorem nextSegment_plain {c : Char} {rest : List Char} (hquote : isQuote c = false)
    (hslash : c = '/' → ∀ d ∈ rest.head?, d ≠ '/' ∧ d ≠ '*') :
    nextSegment c rest = (.plain c, rest) := by
  unfold nextSegment
  rw [if_neg (by rw [hquote]; exact Bool.false_ne_true)]
  by_cases hc : c = '/'
  · rw [if_pos hc]
    rcases rest with - | ⟨d, rest⟩
    · rfl
    · obtain ⟨hline, hblock⟩ := hslash hc d rfl
      split
      · next heq => exact absurd (List.cons.inj heq).1 hline
      · next heq => exact absurd (List.cons.inj heq).1 hblock
      · rfl
  · rw [if_neg hc]

/-- The longest run without line breaks ends where a line break or nothing stands behind it. -/
theorem dropWhile_inLine {body rest : List Char} (hbody : ∀ c ∈ body, inLine c = true)
    (hrest : ∀ c ∈ rest.head?, c = '\r' ∨ c = '\n') :
    (body ++ rest).takeWhile inLine = body ∧ (body ++ rest).dropWhile inLine = rest := by
  refine span_run hbody fun c hc ↦ ?_
  rcases hrest c hc with rfl | rfl <;> rfl

/-- **The cut of a text starts with the segments of its first piece.** -/
theorem segments_text_append {p : Piece} {rest : List Char} (h : p.EndsBefore rest) :
    segments (p.text ++ rest) = p.segments ++ segments rest := by
  cases p with
  | run text hquote =>
    rw [Piece.text_run]
    -- one character after the other, each with the text behind it
    induction text with
    | nil => rfl
    | cons c text ih =>
      have hslash : c = '/' → ∀ d ∈ (text ++ rest).head?, d ≠ '/' ∧ d ≠ '*' := by
        rintro rfl
        exact h [] text rfl
      have htext : (Piece.run text fun d hd ↦ hquote d (List.mem_cons_of_mem c hd)).EndsBefore
          rest := fun before behind heq ↦ h (c :: before) behind (by rw [heq, List.cons_append])
      rw [List.cons_append, segments, nextSegment_plain (hquote c List.mem_cons_self) hslash,
        ih _ htext]
      rfl
  | literal quote body hquote hbody =>
    have htext : (Piece.literal quote body hquote hbody).text ++ rest =
        quote :: (body ++ quote :: rest) := by
      simp [Piece.text, Piece.segments, Segment.text]
    have hnext : nextSegment quote (body ++ quote :: rest) = (.literal quote body, rest) := by
      unfold nextSegment
      rw [if_pos hquote, splitLiteral_append hquote hbody]
    rw [htext, segments, hnext]
    rfl
  | lineComment body hbody =>
    have htext : (Piece.lineComment body hbody).text ++ rest = '/' :: '/' :: (body ++ rest) := by
      simp [Piece.text, Piece.segments, Segment.text]
    obtain ⟨htake, hdrop⟩ := dropWhile_inLine hbody h
    have hnext : nextSegment '/' ('/' :: (body ++ rest)) = (.lineComment body, rest) := by
      rw [nextSegment, if_neg (by decide), if_pos rfl]
      show (Segment.lineComment _, _) = _
      rw [htake, hdrop]
    rw [htext, segments, hnext]
    rfl
  | blockComment body hbody =>
    have htext : (Piece.blockComment body hbody).text ++ rest =
        '/' :: '*' :: (body ++ '*' :: '/' :: rest) := by
      simp [Piece.text, Piece.segments, Segment.text]
    have hnext : nextSegment '/' ('*' :: (body ++ '*' :: '/' :: rest)) =
        (.blockComment body, rest) := by
      rw [nextSegment, if_neg (by decide), if_pos rfl]
      simp only [splitBlockComment_append hbody]
    rw [htext, segments, hnext]
    rfl

/-- **Cutting undoes writing**: the segments of a text are those of the pieces it is written in. -/
theorem segments_concat {pieces : List Piece} (h : Fits pieces) :
    segments (concat pieces) = pieces.flatMap Piece.segments := by
  induction pieces with
  | nil => exact segments.eq_1
  | cons p pieces ih =>
    obtain ⟨hp, hpieces⟩ := h
    rw [concat_cons, segments_text_append hp, ih hpieces, List.flatMap_cons]

/-! ### What is left -/

/-- The pieces that are not comments. -/
def withoutCommentPieces (pieces : List Piece) : List Piece :=
  pieces.filter fun p ↦ !p.isComment

theorem withoutCommentPieces_cons_of_isComment {p : Piece} (h : p.isComment = true)
    (pieces : List Piece) :
    withoutCommentPieces (p :: pieces) = withoutCommentPieces pieces :=
  List.filter_cons_of_neg (by simp [h])

theorem withoutCommentPieces_cons_of_not_isComment {p : Piece} (h : p.isComment = false)
    (pieces : List Piece) :
    withoutCommentPieces (p :: pieces) = p :: withoutCommentPieces pieces :=
  List.filter_cons_of_pos (by simp [h])

/-- **Removing the comments of a text leaves its other pieces.** -/
theorem withoutComments_concat {pieces : List Piece} (h : Fits pieces) :
    withoutComments (concat pieces) = concat (withoutCommentPieces pieces) := by
  rw [withoutComments, segments_concat h]
  clear h
  induction pieces with
  | nil => rfl
  | cons p pieces ih =>
    rw [List.flatMap_cons, List.filter_append, List.flatMap_append, ih]
    rcases hp : p.isComment with - | -
    · have hall : (p.segments.filter fun s ↦ !s.isComment) = p.segments :=
        List.filter_eq_self.2 fun s hs ↦ by simp [p.isComment_of_mem_segments hs, hp]
      rw [hall, withoutCommentPieces_cons_of_not_isComment hp, concat_cons, Piece.text]
    · have hnone : (p.segments.filter fun s ↦ !s.isComment) = [] :=
        List.filter_eq_nil_iff.2 fun s hs ↦ by simp [p.isComment_of_mem_segments hs, hp]
      rw [hnone, withoutCommentPieces_cons_of_isComment hp]
      rfl

/-- A text that does not start with a slash starts with the same character after its comments are
removed. -/
theorem head?_withoutCommentPieces {pieces : List Piece}
    (h : ∀ c ∈ (concat pieces).head?, c ≠ '/') :
    (concat (withoutCommentPieces pieces)).head? = (concat pieces).head? := by
  induction pieces with
  | nil => rfl
  | cons p pieces ih =>
    rw [concat_cons] at h
    cases p with
    | run text hquote =>
      rw [withoutCommentPieces_cons_of_not_isComment rfl, concat_cons, concat_cons, Piece.text_run]
      rw [Piece.text_run] at h
      cases text with
      | nil => exact ih h
      | cons c text => rfl
    | literal quote body hquote hbody =>
      rw [withoutCommentPieces_cons_of_not_isComment rfl]
      rfl
    | lineComment body hbody => exact absurd rfl (h '/' rfl)
    | blockComment body hbody => exact absurd rfl (h '/' rfl)

/-- What is left when the comments are removed still fits: a slash at the end of a run had no
comment behind it. -/
theorem Fits.withoutCommentPieces {pieces : List Piece} (h : Fits pieces) :
    Fits (withoutCommentPieces pieces) := by
  induction pieces with
  | nil => exact trivial
  | cons p pieces ih =>
    obtain ⟨hp, hpieces⟩ := h
    cases p with
    | run text hquote =>
      rw [withoutCommentPieces_cons_of_not_isComment rfl]
      refine ⟨fun before behind heq c hc ↦ ?_, ih hpieces⟩
      cases behind with
      | nil =>
        have hslash := hp before [] heq
        rw [List.nil_append] at hslash hc
        rw [head?_withoutCommentPieces fun d hd ↦ (hslash d hd).1] at hc
        exact hslash c hc
      | cons d behind => exact hp before (d :: behind) heq c hc
    | literal quote body hquote hbody =>
      rw [withoutCommentPieces_cons_of_not_isComment rfl]
      exact ⟨trivial, ih hpieces⟩
    | lineComment body hbody =>
      rw [withoutCommentPieces_cons_of_isComment rfl]
      exact ih hpieces
    | blockComment body hbody =>
      rw [withoutCommentPieces_cons_of_isComment rfl]
      exact ih hpieces

/-- A line comment stops short of the line break. -/
theorem filter_lineBreaks_lineComment {body : List Char} (h : ∀ c ∈ body, inLine c = true) :
    ((Piece.lineComment body h).text.filter fun c ↦ !inLine c) = [] := by
  have htext : (Piece.lineComment body h).text = '/' :: '/' :: body := by
    simp [Piece.text, Piece.segments, Segment.text]
  rw [htext, List.filter_eq_nil_iff]
  intro c hc
  rcases List.mem_cons.1 hc with rfl | hc
  · decide
  · rcases List.mem_cons.1 hc with rfl | hc
    · decide
    · simp [h c hc]

/-- The line breaks of a text that stand outside block comments are not in comments at all. -/
theorem filter_lineBreaks_withoutCommentPieces (pieces : List Piece) :
    ((concat (withoutCommentPieces pieces)).filter fun c ↦ !inLine c) =
      (concat (pieces.filter fun p ↦ !p.isBlockComment)).filter fun c ↦ !inLine c := by
  induction pieces with
  | nil => rfl
  | cons p pieces ih =>
    cases p with
    | run text hquote =>
      rw [withoutCommentPieces_cons_of_not_isComment rfl, List.filter_cons_of_pos rfl, concat_cons,
        concat_cons, List.filter_append, List.filter_append, ih]
    | literal quote body hquote hbody =>
      rw [withoutCommentPieces_cons_of_not_isComment rfl, List.filter_cons_of_pos rfl, concat_cons,
        concat_cons, List.filter_append, List.filter_append, ih]
    | lineComment body hbody =>
      rw [withoutCommentPieces_cons_of_isComment rfl, List.filter_cons_of_pos rfl, concat_cons,
        List.filter_append, filter_lineBreaks_lineComment, List.nil_append, ih]
    | blockComment body hbody =>
      rw [withoutCommentPieces_cons_of_isComment rfl, List.filter_cons_of_neg Bool.false_ne_true,
        ih]

/-- **Exactly the comments are removed.** Of a text that is written in pieces that fit, the pieces
that are not comments are left, unchanged and in order, and with them every line break outside
block comments. Removing comments once more changes nothing. -/
theorem stripComments_concat {pieces : List Piece} (h : Fits pieces) :
    stripComments (String.ofList (concat pieces)) =
        String.ofList (concat (withoutCommentPieces pieces)) ∧
      stripComments (stripComments (String.ofList (concat pieces))) =
        stripComments (String.ofList (concat pieces)) ∧
      ((stripComments (String.ofList (concat pieces))).toList.filter fun c ↦ !inLine c) =
        (concat (pieces.filter fun p ↦ !p.isBlockComment)).filter fun c ↦ !inLine c := by
  have hstrip {written : List Piece} (hfits : Fits written) :
      stripComments (String.ofList (concat written)) =
        String.ofList (concat (withoutCommentPieces written)) := by
    rw [stripComments, String.toList_ofList, withoutComments_concat hfits]
  have htwice : withoutCommentPieces (withoutCommentPieces pieces) = withoutCommentPieces pieces :=
    List.filter_filter.trans (by simp only [Bool.and_self]; rfl)
  refine ⟨hstrip h, ?_, ?_⟩
  · rw [hstrip h, hstrip h.withoutCommentPieces, htwice]
  · rw [hstrip h, String.toList_ofList, filter_lineBreaks_withoutCommentPieces]

/-- That no quote stands in a run can be computed. -/
theorem isQuote_of_any {text : List Char} (h : text.any isQuote = false) :
    ∀ c ∈ text, isQuote c = false := fun c hc ↦
  Bool.eq_false_iff.2 (List.any_eq_false.1 h c hc)

/-- The slashes of a run can be checked one tail of the run after the other. -/
theorem Piece.endsBefore_run_of_tails {text rest : List Char}
    (hquote : ∀ c ∈ text, isQuote c = false) (h : ∀ tail ∈ text.tails, tail.head? = some '/' →
      (tail.tail ++ rest).head?.all (fun c ↦ c ≠ '/' ∧ c ≠ '*') = true) :
    (Piece.run text hquote).EndsBefore rest := by
  intro before behind heq c hc
  have hnext := h ('/' :: behind) ((List.mem_tails _ _).2 ⟨before, heq.symm⟩) rfl
  rw [List.tail_cons, Option.mem_def.1 hc, Option.all_some] at hnext
  exact of_decide_eq_true hnext

/-- A literal with comment openers and an escaped quote in it, behind which a run starts and ends
with a slash; comments with quotes and openers in them. -/
def linkedPieces : List Piece :=
  [.run "url: ".toList (isQuote_of_any (by decide)),
   .literal '"' "//\\\"/*".toList (by decide)
     (.char (by decide) (by decide) (by decide) <| .char (by decide) (by decide) (by decide) <|
      .escape '"' <| .char (by decide) (by decide) (by decide) <|
      .char (by decide) (by decide) (by decide) .nil),
   .blockComment " it's // one *".toList (by decide),
   .run "/ 2 /".toList (isQuote_of_any (by decide)),
   .literal '\x60' "\n".toList (by decide) (.char (by decide) (by decide) (fun _ ↦ rfl) .nil),
   .lineComment " don't /*".toList (List.all_eq_true.1 (by decide)),
   .run ['\n'] (isQuote_of_any (by decide))]

theorem stripComments_linkedPieces :
    Fits linkedPieces ∧
      stripComments "url: \"//\\\"/*\"/* it's // one **// 2 /\x60\n\x60// don't /*\n" =
        "url: \"//\\\"/*\"/ 2 /\x60\n\x60\n" := by
  have hfits : Fits linkedPieces :=
    ⟨Piece.endsBefore_run_of_tails _ (by decide +kernel), trivial, trivial,
      Piece.endsBefore_run_of_tails _ (by decide +kernel), trivial,
      fun c hc ↦ .inr (Option.some.inj hc).symm,
      Piece.endsBefore_run_of_tails _ (by decide +kernel), trivial⟩
  have htext : String.ofList (concat linkedPieces) =
      "url: \"//\\\"/*\"/* it's // one **// 2 /\x60\n\x60// don't /*\n" := by
    decide +kernel
  have hleft : String.ofList (concat (withoutCommentPieces linkedPieces)) =
      "url: \"//\\\"/*\"/ 2 /\x60\n\x60\n" := by
    decide +kernel
  refine ⟨hfits, ?_⟩
  rw [← htext, ← hleft]
  exact (stripComments_concat hfits).1

end SchemaDiagram.Text
