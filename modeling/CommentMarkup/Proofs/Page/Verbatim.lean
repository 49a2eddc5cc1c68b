import CommentMarkup.Proofs.Inline.Lexeme
import CommentMarkup.Proofs.Inline.Wording
import CommentMarkup.Proofs.Line.Escaped
import CommentMarkup.Render

/-!
# Texts shown verbatim

An escaped text is one paragraph that shows the text itself: no backslash is left, and no rule reads
anything into the characters behind them.
-/

namespace CommentMarkup

open Text

/-! ### Spans -/

/-- No line feed of the text breaks the line when `held` stands before the text, in reverse. -/
def Unbroken (held t : Text) : Prop :=
  ∀ front back, t = front ++ '\n' :: back → ¬ [' ', ' '].isPrefixOf (front.reverse ++ held)

theorem Unbroken.tail {held t : Text} {c : Char} (unbroken : Unbroken held (c :: t)) :
    Unbroken (c :: held) t := by
  intro front back split
  have whole := unbroken (c :: front) back (by rw [split]; rfl)
  rwa [List.reverse_cons, List.append_assoc] at whole

theorem lexeme_mark {mode : EmphasisMode} {prev escaped : Option Char} {held : Text} {c : Char}
    {t : Text} (mark : isPunctuation c) :
    lexeme mode prev escaped held '\\' (c :: t) = .escape c := by
  have other : c ≠ '\n' := by
    rintro rfl
    exact absurd mark (by decide)
  simp [lexeme, backslashLexeme, other, mark]

theorem lexeme_plain {mode : EmphasisMode} {prev escaped : Option Char} {held t : Text} {c : Char}
    (plain : ¬ isPunctuation c) (unbroken : c = '\n' → ¬ [' ', ' '].isPrefixOf held) :
    lexeme mode prev escaped held c t = .text [c] 0 := by
  refine lexeme_unmarked (fun mark => plain ?_) unbroken
  have marks : ['\\', tick, '&', '<', '*', '_', '~'].all isPunctuation := by decide
  exact List.all_eq_true.mp marks c mark

theorem opensBracket_plain {escaped : Option Char} {t : Text} {c : Char}
    (plain : c = '\\' ∨ ¬ isPunctuation c) : opensBracket escaped c t = false := by
  have other {d : Char} (mark : isPunctuation d) (apart : d ≠ '\\') : c ≠ d := by
    rintro rfl
    rcases plain with slash | plain
    · exact apart slash
    · exact plain mark
  simp [opensBracket, other (d := '!') (by decide) (by decide),
    other (d := '[') (by decide) (by decide)]

/-- Scanning takes the backslashes off and finds nothing but text. -/
theorem scan_escapeMarkup {σ : Type} (mode : EmphasisMode) (attempt : Attempt σ)
    (prev escaped : Option Char) (held t : Text) (s : σ) (unbroken : Unbroken held t) :
    scan mode attempt prev escaped held (escapeMarkup t) s =
      (heldPiece (t.reverse ++ held), s) := by
  induction t generalizing prev escaped held with
  | nil => rw [show escapeMarkup [] = [] from rfl, scan]; rfl
  | cons c t ih =>
    rw [escapeMarkup_cons, List.reverse_cons, List.append_assoc, List.singleton_append]
    by_cases mark : isPunctuation c
    · rw [escapeMarkupChar_mark mark, List.cons_append, List.singleton_append, scan,
        opensBracket_plain (.inl rfl), lexeme_mark mark]
      exact ih _ _ _ unbroken.tail
    · have feed : c = '\n' → ¬ [' ', ' '].isPrefixOf held := by
        rintro rfl
        exact unbroken [] t rfl
      rw [escapeMarkupChar_plain mark, List.singleton_append, scan,
        opensBracket_plain (.inr mark), lexeme_plain mark feed]
      exact ih _ _ _ unbroken.tail

theorem unbroken_framed {t : Text} (framed : ∀ l ∈ cutAt (· == '\n') t, isFramed l) :
    Unbroken [] t := by
  intro front back split broken
  rw [List.append_nil] at broken
  obtain ⟨rest, eq⟩ := List.isPrefixOf_iff_prefix.mp broken
  have ends : front = rest.reverse ++ [' '] ++ [' '] := by
    rw [List.reverse_eq_iff.mp eq.symm]
    simp
  obtain ⟨u, found⟩ := exists_cutAt_ending (p := (· == '\n')) (a := ' ') (b := '\n') (by decide)
    (by decide) (rest.reverse ++ [' ']) back
  rw [split, ends, List.append_assoc] at framed
  -- the line that ends here would have white space at its end
  have line := framed _ found
  rw [isFramed, Bool.and_eq_true] at line
  obtain ⟨v, c, same, ink⟩ := endsWith_iff.mp line.2
  cases List.append_inj_right' same rfl
  exact absurd ink (by decide)

theorem readInline_escapeMarkup (scope : Scope) (none : scope.references.abbreviations = [])
    (notes : Notes) {t : Text} (filled : t ≠ []) (unbroken : Unbroken [] t) :
    readInline scope (escapeMarkup t) notes = ([.text t], notes) := by
  rw [readInline, scan_escapeMarkup _ _ _ _ _ _ _ unbroken, none]
  simp [heldPiece, filled, emphasize, pair, flatten, consText, expandAbbreviations, Inline.expand,
    occurrences, occurrencesFrom_nil, markOccurrences, textSpan]

/-! ### Blocks -/

theorem endsWith_unlines {p : Char → Bool} {ls : List Text} (filled : ls ≠ [])
    (ends : ∀ l ∈ ls, l.endsWith p) : (unlines ls).endsWith p := by
  induction ls with
  | nil => exact absurd rfl filled
  | cons l ls ih =>
    cases ls with
    | nil => simpa [unlines] using ends l List.mem_cons_self
    | cons l' ls =>
      obtain ⟨u, c, eq, h⟩ := endsWith_iff.mp
        (ih (by simp) fun m member => ends m (List.mem_cons_of_mem _ member))
      exact endsWith_iff.mpr ⟨l ++ '\n' :: u, c, by rw [unlines_cons_cons, eq]; simp, h⟩

theorem paragraphText_framed {ls : List Text} (filled : ls ≠ []) (framed : ∀ l ∈ ls, isFramed l) :
    paragraphText ls = unlines ls := by
  have kept : ls.map trimStart = ls := by
    have same := List.map_congr_left (g := id) fun l member => trimStart_framed (framed l member)
    rwa [List.map_id] at same
  have inked : ∀ l ∈ ls, l.endsWith fun c => !isSpace c := by
    intro l member
    have both := framed l member
    rw [isFramed, Bool.and_eq_true] at both
    exact both.2
  rw [paragraphText, kept, trimEnd_inked (endsWith_unlines filled inked)]

theorem readDocument_escapeMarkup {t : Text} (framed : ∀ l ∈ cutAt (· == '\n') t, isFramed l) :
    readDocument Options.default.fence (escapeMarkup t) =
      .ok [.paragraph (.unread (escapeMarkup t))] := by
  have joined := unlines_cutAt t
  have uncut {l : Text} (found : l ∈ cutAt (· == '\n') t) : '\n' ∉ l :=
    fun member => (of_mem_cutAt found member).2 rfl
  cases eq : cutAt (· == '\n') t with
  | nil => exact absurd eq (cutAt_ne_nil t)
  | cons l ls =>
    rw [eq] at joined framed uncut
    have whole : ∀ m ∈ (l :: ls).map escapeMarkup, '\n' ∉ m := by
      intro m member
      obtain ⟨k, found, rfl⟩ := List.mem_map.mp member
      exact feed_notMem_escapeMarkup (uncut found)
    have framed' : ∀ m ∈ (l :: ls).map escapeMarkup, isFramed m := by
      intro m member
      obtain ⟨k, found, rfl⟩ := List.mem_map.mp member
      exact escapeMarkup_framed (framed k found)
    have text : ∀ m ∈ (l :: ls).map escapeMarkup,
        isTextLine Options.default.fence .document m := by
      intro m member
      obtain ⟨k, found, rfl⟩ := List.mem_map.mp member
      exact isTextLine_escapeMarkup (framed k found)
    have inked : ∀ m ∈ (l :: ls).map escapeMarkup, m.endsWith fun c => !isSpace c := by
      intro m member
      have both := framed' m member
      rw [isFramed, Bool.and_eq_true] at both
      exact both.2
    have source : escapeMarkup t = unlines ((l :: ls).map escapeMarkup) := by
      rw [← joined, escapeMarkup_unlines]
    rw [readDocument, source, lines_unlines whole inked, List.map_cons, readBlocks_text text]
    rw [paragraph, ← List.map_cons, paragraphText_framed (by simp) framed']

/-- Without definitions a paragraph is resolved to its spans alone. -/
theorem resolve_paragraph {source : Text} {spans : List Inline}
    (read : readInline ⟨.wordInternalLiteral, .empty, []⟩ source (.start []) = (spans, .start [])) :
    resolve Options.default [.paragraph (.unread source)] =
      .ok ⟨[.paragraph ⟨source, spans⟩], [], [], []⟩ := by
  have collected : References.collect [.paragraph (.unread source)] = (.empty, []) := by
    simp [References.collect, flow, Block.flow, References.register, References.empty,
      References.longestFirst]
  have resolved : resolveBlocks ⟨.wordInternalLiteral, .empty, []⟩ (.start [])
      [.paragraph (.unread source)] = ([.paragraph ⟨source, spans⟩], .start []) := by
    simp only [resolveBlocks, rewrite, Block.rewrite, resolveStep, Prose.unread, read]
  rw [resolve, collected]
  simp only [HeadingIndex.assign, rewrite, Block.rewrite, HeadingIndex.assignStep, Options.default,
    resolved]
  rfl

theorem resolve_escapeMarkup {t : Text} (filled : t ≠ []) (unbroken : Unbroken [] t) :
    resolve Options.default [.paragraph (.unread (escapeMarkup t))] =
      .ok ⟨[.paragraph ⟨escapeMarkup t, [.text t]⟩], [], [], []⟩ :=
  resolve_paragraph (readInline_escapeMarkup _ rfl _ filled unbroken)

/-- A text of framed lines is shown as it is when its punctuation is escaped. -/
theorem renderText_escapeMarkup {t : Text} (framed : ∀ l ∈ cutAt (· == '\n') t, isFramed l) :
    renderText Options.default (escapeMarkup t) =
      .ok ⟨"<p>".toList ++ escapeText t ++ "</p>\n".toList, [], []⟩ := by
  have filled : t ≠ [] := by
    rintro rfl
    exact absurd (framed [] (by decide)) (by decide)
  have document : Document.ofText Options.default (escapeMarkup t) =
      .ok ⟨[.paragraph ⟨escapeMarkup t, [.text t]⟩], [], [], []⟩ := by
    rw [Document.ofText, readDocument_escapeMarkup framed]
    exact resolve_escapeMarkup filled (unbroken_framed framed)
  rw [renderText, document]
  simp only [Document.rendered, Page.render, Page.documentNodes, Page.blocksNodes, Page.blockNodes,
    Page.inlineNodes, Page.spanNodes, Page.footnoteSection, Page.renderOutline, Page.outlineNodes,
    List.isEmpty_nil, if_true, List.append_nil, Html.writeNodes, Html.Node.write, Html.openTag,
    Html.closeTag]
  have opening : '<' :: Html.Tag.p.name ++ Html.writeAttributes [] ++ ['>'] = "<p>".toList := by
    decide
  have closing :
      '<' :: '/' :: Html.Tag.p.name ++ ['>'] ++ Page.lineFeed.write = "</p>\n".toList := by
    decide
  rw [opening, List.append_assoc, closing]

theorem renderText_escapeMarkup_list :
    renderText Options.default "1\\. a\\*b\n\\- \\<c\\>".toList =
      .ok ⟨"<p>1. a*b\n- &lt;c&gt;</p>\n".toList, [], []⟩ := by
  have source : escapeMarkup "1. a*b\n- <c>".toList = "1\\. a\\*b\n\\- \\<c\\>".toList := by decide
  have shown : "<p>".toList ++ escapeText "1. a*b\n- <c>".toList ++ "</p>\n".toList =
      "<p>1. a*b\n- &lt;c&gt;</p>\n".toList := by decide
  rw [← source, ← shown]
  exact renderText_escapeMarkup (by decide)

end CommentMarkup
