import CommentMarkup.Page.Inline
import CommentMarkup.Proofs.Html.CharRef
import CommentMarkup.Proofs.Html.Token
import CommentMarkup.Proofs.Inline.Lexeme
import CommentMarkup.Proofs.Inline.Wording

/-!
# Character references on pages

In a text without other markup the character references, as their grammar has them, are all that is
written as it stands. Any other ampersand is escaped: `references_recognised`.
-/

namespace CommentMarkup

open Html

def markupChars : Text := ['\\', tick, '<', '[', '*', '_', '~', '\n']

/-- The text with its greater-than signs escaped, and the ampersands that start no reference. -/
def escapeOutside : Text → Text
  | [] => []
  | c :: cs =>
    (if c = '>' then "&gt;".toList
      else if c = '&' ∧ ¬ CharRef.StartsReference (c :: cs) then "&amp;".toList
      else [c]) ++ escapeOutside cs

theorem escapeOutside_append {w : Text} (inert : '&' ∉ w ∧ '>' ∉ w) (rest : Text) :
    escapeOutside (w ++ rest) = w ++ escapeOutside rest := by
  induction w with
  | nil => rfl
  | cons c w ih =>
    simp only [List.mem_cons, not_or] at inert
    obtain ⟨⟨ampersand, later⟩, greater, last⟩ := inert
    have plain : ¬ (c = '&' ∧ ¬ CharRef.StartsReference (c :: (w ++ rest))) :=
      fun both => ampersand both.1.symm
    rw [List.cons_append, escapeOutside, if_neg (Ne.symm greater), if_neg plain, ih ⟨later, last⟩]
    rfl

/-- A reference holds no other ampersand, so that it is kept as a whole. -/
theorem escapeOutside_reference {body : Text} (form : CharRef.IsReference ('&' :: body))
    (rest : Text) :
    escapeOutside ('&' :: (body ++ rest)) = '&' :: (body ++ escapeOutside rest) := by
  obtain ⟨_, same, inside⟩ := form.body
  cases same
  have absent {c : Char} (letter : ¬ c.isAlphanum) (mark : c ≠ '#' ∧ c ≠ ';') : c ∉ body := by
    intro member
    rcases inside c member with same | same | same
    · exact letter same
    · exact mark.1 same
    · exact mark.2 same
  have starts : CharRef.StartsReference ('&' :: (body ++ rest)) :=
    ⟨'&' :: body, List.prefix_append _ rest, form⟩
  have inert : '&' ∉ body ∧ '>' ∉ body :=
    ⟨absent (by decide) (by decide), absent (by decide) (by decide)⟩
  rw [escapeOutside, if_neg (by decide), if_neg (fun both => both.2 starts),
    escapeOutside_append inert]
  rfl

theorem escapeOutside_cons {c : Char} {cs : Text} (low : c ≠ '<')
    (outside : ¬ (c = '&' ∧ CharRef.StartsReference (c :: cs))) :
    escapeOutside (c :: cs) = escapeTextChar c ++ escapeOutside cs := by
  by_cases ampersand : c = '&'
  · have bare : c = '&' ∧ ¬ CharRef.StartsReference (c :: cs) :=
      ⟨ampersand, fun starts => outside ⟨ampersand, starts⟩⟩
    rw [escapeOutside, if_pos bare, if_neg (by rw [ampersand]; decide), escapeTextChar,
      if_pos ampersand]
  · have other : ¬ (c = '&' ∧ ¬ CharRef.StartsReference (c :: cs)) := fun both => ampersand both.1
    rw [escapeOutside, escapeTextChar, if_neg ampersand, if_neg low, if_neg other]

/-! ### Lexemes -/

section Lexemes

variable {mode : EmphasisMode} {prev escaped : Option Char} {held cs : Text}

theorem lexeme_reference {n : Nat} (accepted : CharRef.length? ('&' :: cs) = some n) :
    lexeme mode prev escaped held '&' cs = .span (.charRef (('&' :: cs).take n)) (n - 1) := by
  rw [lexeme, if_neg (by decide), if_neg (by decide), if_pos rfl, accepted]

theorem lexeme_outside {c : Char} (bare : c ∉ markupChars)
    (outside : ¬ (c = '&' ∧ CharRef.StartsReference (c :: cs))) :
    lexeme mode prev escaped held c cs = .text [c] 0 := by
  by_cases ampersand : c = '&'
  · have none : CharRef.length? (c :: cs) = none := by
      rw [← Option.not_isSome_iff_eq_none, ← CharRef.startsReference_iff]
      exact fun starts => outside ⟨ampersand, starts⟩
    subst ampersand
    rw [lexeme, if_neg (by decide), if_neg (by decide), if_pos rfl, none]
  · simp only [markupChars, List.mem_cons, List.not_mem_nil, or_false, not_or] at bare
    refine lexeme_unmarked ?_ fun feed => absurd feed (by simp [bare])
    simp [bare, ampersand]

end Lexemes

/-! ### Pieces -/

namespace Page

theorem writeNodes_consText (t : Text) (spans : List Inline) :
    writeNodes (inlineNodes (consText t spans)) =
      escapeText t ++ writeNodes (inlineNodes spans) := by
  unfold consText
  split
  · simp [inlineNodes, spanNodes, writeNodes, Node.write, escapeText]
  · rfl

/-- The pieces are finished spans, and `t` is what is written for them. -/
structure Writes (t : Text) (pieces : List Piece) : Prop where
  written : writeNodes (inlineNodes (flatten pieces)) = t
  finished : ∀ run, .run run ∉ pieces

namespace Writes

theorem nil : Writes [] [] := ⟨rfl, fun _ => List.not_mem_nil⟩

variable {t : Text} {pieces : List Piece} (writes : Writes t pieces)

include writes

theorem charRef (ref : Text) : Writes (ref ++ t) (.span (.charRef ref) :: pieces) where
  written := by
    rw [← writes.written]
    rfl
  finished run member := writes.finished run ((List.mem_cons.mp member).resolve_left nofun)

theorem held (held : Text) : Writes (escapeText held.reverse ++ t) (heldPiece held ++ pieces) := by
  unfold heldPiece
  split
  · rename_i empty
    rw [List.isEmpty_iff.mp empty]
    exact writes
  · refine ⟨?_, fun run member => ?_⟩
    · rw [List.singleton_append, flatten, writeNodes_consText, writes.written]
    · exact writes.finished run ((List.mem_cons.mp member).resolve_left nofun)

end Writes

/-- Behind what is held back, the references of the text are pieces of their own, and all else is
text. -/
theorem scan_writes {σ : Type} (mode : EmphasisMode) (attempt : Attempt σ)
    (prev escaped : Option Char) (held : Text) {t : Text} (bare : ∀ c ∈ t, c ∉ markupChars)
    (s : σ) :
    Writes (escapeText held.reverse ++ escapeOutside t)
      (scan mode attempt prev escaped held t s).1 := by
  induction size : t.length using Nat.strong_induction_on generalizing prev escaped held t with
  | _ n ih =>
    cases t with
    | nil =>
      rw [scan, escapeOutside]
      simpa using Writes.nil.held held
    | cons c cs =>
      have closed : opensBracket escaped c cs = false :=
        opensBracket_of_notMem fun member => bare '[' member (by decide)
      by_cases reference : c = '&' ∧ CharRef.StartsReference (c :: cs)
      · obtain ⟨rfl, ref, ⟨after, split⟩, form⟩ := reference
        obtain ⟨body, rfl, _⟩ := form.body
        obtain rfl : cs = body ++ after := by simpa using split.symm
        have accepted : CharRef.length? ('&' :: (body ++ after)) = some (body.length + 1) :=
          form.length_append after
        have shorter : after.length < n := by
          simp only [List.length_cons, List.length_append] at size
          omega
        have later (prev : Option Char) := ih after.length shorter prev none [] (fun c member =>
          bare c (List.mem_cons_of_mem _ (List.mem_append_right body member))) rfl
        have taken : ('&' :: (body ++ after)).take (body.length + 1) = '&' :: body := by
          rw [List.take_succ_cons, List.take_left]
        rw [scan, closed, lexeme_reference accepted, escapeOutside_reference form, taken]
        simp only [Nat.add_sub_cancel, List.drop_left]
        exact ((later _).charRef ('&' :: body)).held held
      · rw [List.forall_mem_cons] at bare
        have low : c ≠ '<' := by
          rintro rfl
          exact bare.1 (by decide)
        have later := ih cs.length (by simp [← size]) (some c) none (c :: held) bare.2 rfl
        rw [scan, closed, lexeme_outside bare.1 reference, escapeOutside_cons low reference]
        simpa [escapeText] using later

theorem pair_finished {pieces : List Piece} (finished : ∀ run, .run run ∉ pieces)
    (done : List Piece) : pair done pieces = done.reverse ++ pieces := by
  induction pieces generalizing done with
  | nil => rw [pair, List.append_nil]
  | cons piece pieces ih =>
    have later : ∀ run, .run run ∉ pieces :=
      fun run member => finished run (List.mem_cons_of_mem _ member)
    cases piece with
    | span span => rw [pair, ih later, List.reverse_cons, List.append_assoc, List.singleton_append]
    | run run => exact absurd List.mem_cons_self (finished run)

/-! ### Written spans -/

theorem writeNodes_inlineNodes (spans : List Inline) :
    writeNodes (inlineNodes spans) = spans.flatMap fun span => writeNodes (spanNodes span) := by
  induction spans with
  | nil => rfl
  | cons span spans ih => rw [inlineNodes, writeNodes_append, ih, List.flatMap_cons]

mutual

/-- Without terms, marking them changes nothing of what is written. -/
theorem writeNodes_expand_nil (span : Inline) :
    writeNodes (inlineNodes (span.expand [])) = writeNodes (spanNodes span) := by
  cases span with
  | text t =>
    rw [Inline.expand, occurrences, occurrencesFrom_nil, markOccurrences, List.drop_zero, textSpan]
    split
    · rename_i empty
      rw [List.isEmpty_iff.mp empty]
      rfl
    · rfl
  | emphasis children | strong children | strikethrough children | link _ children =>
    have inner := writeNodes_expandAbbreviations_nil children
    simp only [Inline.expand, inlineNodes, spanNodes, writeNodes, Node.write, inner,
      List.append_nil]
  | _ => rw [Inline.expand, inlineNodes, inlineNodes, List.append_nil] <;> nofun

theorem writeNodes_expandAbbreviations_nil (spans : List Inline) :
    writeNodes (inlineNodes (expandAbbreviations [] spans)) = writeNodes (inlineNodes spans) := by
  cases spans with
  | nil => rfl
  | cons span spans =>
    have here := writeNodes_expand_nil span
    have later := writeNodes_expandAbbreviations_nil spans
    rw [writeNodes_inlineNodes] at here later
    rw [expandAbbreviations, writeNodes_inlineNodes, List.flatMap_append, here, later, inlineNodes,
      writeNodes_append]

end

/-- A text without markup is written with its references as they stand and all else escaped. -/
theorem writeNodes_readInline (scope : Scope) (undefined : scope.references.abbreviations = [])
    {t : Text} (bare : ∀ c ∈ t, c ∉ markupChars) (notes : Notes) :
    writeNodes (inlineNodes (readInline scope t notes).1) = escapeOutside t := by
  have writes := scan_writes scope.mode (readBracket scope) none none [] bare notes
  rw [readInline, undefined]
  dsimp only
  rw [writeNodes_expandAbbreviations_nil, emphasize, pair_finished writes.finished]
  exact writes.written

/-- A reference is recognised exactly if it has the form of one. In a text without other markup the
references are written as they stand, and all else escaped. -/
theorem references_recognised :
    (∀ (t : Text) (start n : Nat), CharRef.length? (t.drop start) = some n ↔
      ∃ ref, ref <+: t.drop start ∧ ref.length = n ∧ CharRef.IsReference ref) ∧
    ∀ scope : Scope, scope.references.abbreviations = [] → ∀ (t : Text) (notes : Notes),
      (∀ c ∈ t, c ∉ markupChars) →
      writeNodes (inlineNodes (readInline scope t notes).1) = escapeOutside t :=
  ⟨fun _ _ _ => CharRef.length_eq_some_iff,
    fun scope undefined _ notes bare => writeNodes_readInline scope undefined bare notes⟩

/-- Numbers of the greatest length and longer ones, names, and a reference without its end. -/
theorem references_recognised_limits :
    let scope : Scope := ⟨.classic, .empty, []⟩
    let t := "&#1234567;&#12345678;&#xABCDEF;&#XABCDEF0;&a1;&1a;>&amp".toList
    scope.references.abbreviations = [] ∧ (∀ c ∈ t, c ∉ markupChars) ∧
      CharRef.length? (t.drop 21) = some 10 ∧
      writeNodes (inlineNodes (readInline scope t (.start [])).1) =
        "&#1234567;&amp;#12345678;&#xABCDEF;&amp;#XABCDEF0;&a1;&amp;1a;&gt;&amp;amp".toList := by
  intro scope t
  have bare : ∀ c ∈ t, c ∉ markupChars := by
    have all : t.all fun c => !markupChars.contains c := by decide +kernel
    simpa using all
  obtain ⟨grammar, written⟩ := references_recognised
  have valid : ∀ d ∈ "ABCDEF".toList, CharRef.IsHex d := by simp [CharRef.IsHex]
  have digits : CharRef.IsReference "&#xABCDEF;".toList :=
    .hex (.inl rfl) valid (by decide) (by decide)
  have accepted := (grammar t 21 10).mpr ⟨"&#xABCDEF;".toList, by decide, rfl, digits⟩
  exact ⟨rfl, bare, accepted, (written scope rfl t (.start []) bare).trans (by decide)⟩

end Page

end CommentMarkup
