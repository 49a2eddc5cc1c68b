import CommentMarkup.Proofs.Inline.Reported
import CommentMarkup.Proofs.Page.Verbatim
import Mathlib

/-!
# References without a definition

An image and a link whose label names nothing stay text. The link is reported once and the image
twice, since its bracket is read as that of an image and then as that of a link:
`unresolved_reported_iff`.
-/

namespace CommentMarkup

/-- Nothing in the text is markup, at the start of a bracket or anywhere. -/
structure Unmarked (t : Text) : Prop where
  plain : ∀ c ∈ t, c ∉ ['[', ']', '!', '\\', tick, '&', '<', '*', '_', '~']
  caret : t.head? ≠ some '^'
  /-- No line is broken by spaces at its end. -/
  unbroken : ¬ [' ', ' ', '\n'] <:+: t

def linkForm (text label : Text) : Text := '[' :: (text ++ [']']) ++ '[' :: (label ++ [']'])

def imageForm (text label : Text) : Text := '!' :: linkForm text label

/-! ### Brackets -/

theorem bracketIndex_unmarked {t : Text} (unmarked : Unmarked t) (rest : Text) :
    bracketIndex? 0 (t ++ ']' :: rest) = some t.length := by
  have plain := unmarked.plain
  clear unmarked
  induction t with
  | nil =>
    rw [List.nil_append, bracketIndex?]
    rfl
  | cons c t ih =>
    rw [List.forall_mem_cons] at plain
    obtain ⟨here, later⟩ := plain
    simp only [List.mem_cons, List.not_mem_nil, or_false, not_or] at here
    rw [List.cons_append, bracketIndex?]
    simp [here, ih later]

theorem head_append_bracket {t : Text} (caret : t.head? ≠ some '^') (rest : Text) :
    (t ++ ']' :: rest).head? ≠ some '^' := by
  cases t with
  | nil => simp
  | cons c t => exact caret

section Attempts

variable {scope : Scope} {text label : Text} (plainText : Unmarked text)
  (plainLabel : Unmarked label)

include plainText plainLabel

theorem unresolved_linkForm (filled : ¬ label.isBlank) (undefined : scope.target? label = none) :
    scope.unresolved? (text ++ ']' :: '[' :: (label ++ [']'])) = some label := by
  have behind : (text ++ ']' :: '[' :: (label ++ [']'])).drop (text.length + 1) =
      '[' :: (label ++ [']']) := by simp
  have labelled : linkLabel? ('[' :: (label ++ [']'])) = some (label, 0 + label.length + 2) := by
    have open_ : ¬ Text.startsWith (· == '^') (label ++ [']']) := by
      cases label with
      | nil => exact Bool.false_ne_true
      | cons c label => simpa [Text.startsWith] using plainLabel.caret
    simp [linkLabel?, runLength, open_, bracketIndex_unmarked plainLabel []]
  simp only [Scope.unresolved?, bracketIndex_unmarked plainText, behind, labelled, linkDestination?]
  simp [filled, undefined]

omit plainText in
theorem readLink_label (undefined : scope.references.link? label = none) (notes : Notes) :
    readLink scope false (label ++ [']']) notes = (none, notes) := by
  have behind : (label ++ [']']).drop (label.length + 1) = [] := by simp
  simp [readLink, bracketIndex_unmarked plainLabel [], behind, linkDestination?, linkLabel?,
    undefined]

end Attempts

/-! ### Scanning -/

theorem unbroken_unmarked {t held : Text} (unmarked : Unmarked t) (apart : held.head? ≠ some ' ') :
    Unbroken held (t ++ [']']) := by
  intro front back split spaces
  obtain ⟨rest, eq⟩ := List.isPrefixOf_iff_prefix.mp spaces
  cases turned : front.reverse with
  | nil =>
    rw [turned, List.nil_append] at eq
    exact apart (by rw [← eq]; rfl)
  | cons c back' =>
    cases back' with
    | nil =>
      rw [turned] at eq
      cases eq
      exact apart rfl
    | cons d more =>
      rw [turned] at eq
      cases eq
      -- both spaces stand in the text, and so does the line feed, since it is no bracket
      have inside : [' ', ' ', '\n'] <:+: t ++ [']'] := by
        refine ⟨more.reverse, back, ?_⟩
        rw [split, List.reverse_eq_iff.mp turned]
        simp
      rcases List.infix_concat_iff.mp inside with ending | inner
      · obtain ⟨_, ends⟩ := ending
        have last := congrArg List.getLast? ends
        simp at last
      · exact unmarked.unbroken inner

section Scan

variable {σ : Type} {mode : EmphasisMode} {attempt : Attempt σ} {out : List Piece × σ} {s : σ}

/-- Text without markup is held back. -/
theorem scan_unmarked {t rest held : Text}
    (plain : ∀ c ∈ t, c ∉ ['[', '!', '\\', tick, '&', '<', '*', '_', '~'])
    (unbroken : Unbroken held t)
    (later : ∀ prev, scan mode attempt prev none (t.reverse ++ held) rest s = out)
    (prev : Option Char) : scan mode attempt prev none held (t ++ rest) s = out := by
  induction t generalizing prev held with
  | nil => exact later prev
  | cons c t ih =>
    rw [List.forall_mem_cons] at plain
    obtain ⟨here, others⟩ := plain
    have feed : c = '\n' → ¬ [' ', ' '].isPrefixOf held := by
      rintro rfl
      exact unbroken [] t rfl
    have closed : opensBracket none c (t ++ rest) = false := by
      simp only [List.mem_cons, not_or] at here
      simp [opensBracket, here]
    have text : lexeme mode prev none held c (t ++ rest) = .text [c] 0 :=
      lexeme_unmarked (fun mark => here (.tail _ (.tail _ mark))) feed
    rw [List.cons_append, scan, closed, text]
    refine ih others unbroken.tail (fun prev => ?_) _
    have whole := later prev
    rwa [List.reverse_cons, List.append_assoc] at whole

theorem scan_failed {c : Char} {cs held : Text} {prev escaped : Option Char} {s' : σ}
    (opens : opensBracket escaped c cs) (fails : attempt (c :: cs) s = (none, s')) :
    scan mode attempt prev escaped held (c :: cs) s =
      scan mode attempt (some c) none (c :: held) cs s' := by
  rw [scan, if_pos opens, fails]

end Scan

theorem emphasize_held {t : Text} (written : t ≠ []) :
    emphasize (heldPiece t.reverse) = [.text t] := by
  simp [heldPiece, written, emphasize, pair, flatten, consText]

section Forms

variable {scope : Scope} {text label : Text} (plainText : Unmarked text)
  (plainLabel : Unmarked label) (filled : ¬ label.isBlank) (undefined : scope.target? label = none)

include plainText plainLabel filled undefined

theorem scan_linkForm (prev : Option Char) {held : Text} (notes : Notes) :
    scan scope.mode (readBracket scope) prev none held (linkForm text label) notes =
      (heldPiece ((linkForm text label).reverse ++ held),
        notes.warn (.unresolved .link label)) := by
  have bare {t : Text} (unmarked : Unmarked t) :
      ∀ c ∈ t ++ [']'], c ∉ ['[', '!', '\\', tick, '&', '<', '*', '_', '~'] := by
    intro c member mark
    rcases List.mem_append.mp member with inside | last
    · refine unmarked.plain c inside ?_
      rcases List.mem_cons.mp mark with rfl | other
      · exact List.mem_cons_self
      · exact .tail _ (.tail _ other)
    · rw [List.mem_singleton.mp last] at mark
      exact absurd mark (by decide)
  have form : linkForm text label = '[' :: ((text ++ [']']) ++ '[' :: (label ++ [']'])) := rfl
  have first (notes : Notes) :
      readBracket scope ('[' :: ((text ++ [']']) ++ '[' :: (label ++ [']']))) notes =
        (none, notes.warn (.unresolved .link label)) := by
    rw [List.append_assoc, List.singleton_append,
      readBracket_link (head_append_bracket plainText.caret _),
      readLink_unresolved (unresolved_linkForm plainText plainLabel filled undefined)]
    rfl
  have second (notes : Notes) :
      readBracket scope ('[' :: (label ++ [']'])) notes = (none, notes) := by
    rw [readBracket_link (head_append_bracket plainLabel.caret _),
      readLink_label plainLabel (Option.or_eq_none_iff.mp undefined).1]
    rfl
  rw [form, scan_failed rfl (first notes)]
  refine scan_unmarked (bare plainText) (unbroken_unmarked plainText (by simp)) (fun prev => ?_) _
  rw [scan_failed rfl (second _), ← List.append_nil (label ++ [']'])]
  refine scan_unmarked (bare plainLabel) (unbroken_unmarked plainLabel (by simp)) (fun prev => ?_) _
  rw [scan]
  simp

theorem readInline_linkForm (notes : Notes) :
    readInline scope (linkForm text label) notes =
      (expandAbbreviations scope.references.abbreviations [.text (linkForm text label)],
        notes.warn (.unresolved .link label)) := by
  rw [readInline, scan_linkForm plainText plainLabel filled undefined, List.append_nil]
  dsimp only
  rw [emphasize_held (by simp [linkForm])]

theorem readInline_imageForm (notes : Notes) :
    readInline scope (imageForm text label) notes =
      (expandAbbreviations scope.references.abbreviations [.text (imageForm text label)],
        (notes.warn (.unresolved .link label)).warn (.unresolved .link label)) := by
  have attempt : readBracket scope ('!' :: linkForm text label) notes =
      (none, notes.warn (.unresolved .link label)) := by
    have form : '!' :: linkForm text label =
        '!' :: '[' :: (text ++ ']' :: '[' :: (label ++ [']'])) := by simp [linkForm]
    rw [form, readBracket,
      readLink_unresolved (unresolved_linkForm plainText plainLabel filled undefined)]
    rfl
  have reversed : (linkForm text label).reverse ++ ['!'] = (imageForm text label).reverse :=
    List.reverse_cons.symm
  rw [readInline, imageForm, scan_failed rfl attempt,
    scan_linkForm plainText plainLabel filled undefined, reversed]
  dsimp only
  rw [emphasize_held (by simp [imageForm]), imageForm]

end Forms

/-! ### Reports -/

/-- A link without a definition is reported once and an image twice, and both stay text. In any
text a bracket is reported at most once exactly if no image is reported that does not start like a
footnote reference. -/
theorem unresolved_reported_iff (scope : Scope) (notes : Notes) :
    (∀ text label, Unmarked text → Unmarked label → ¬ label.isBlank →
      scope.target? label = none →
      readInline scope (linkForm text label) notes =
        (expandAbbreviations scope.references.abbreviations [.text (linkForm text label)],
          notes.warn (.unresolved .link label)) ∧
      readInline scope (imageForm text label) notes =
        (expandAbbreviations scope.references.abbreviations [.text (imageForm text label)],
          (notes.warn (.unresolved .link label)).warn (.unresolved .link label))) ∧
    ∀ t, let reports := scope.reports t notes
      reportedLinks (readInline scope t notes).2.warnings =
          reportedLinks notes.warnings ++ reports.map Report.label ∧
        (∀ r ∈ reports, r.place <:+ t ∧ r.place.head? = some '[') ∧
        ((reports.map Report.place).Nodup ↔
          ∀ r ∈ reports, r.image → Text.startsWith (· == '^') (r.place.drop 1)) := by
  refine ⟨fun text label plainText plainLabel filled undefined => ?_, fun t => ?_⟩
  · exact ⟨readInline_linkForm plainText plainLabel filled undefined notes,
      readInline_imageForm plainText plainLabel filled undefined notes⟩
  · obtain ⟨labels, reports⟩ := readInline_reports scope t notes
    exact ⟨labels, reports.places, reports.once⟩

theorem unmarked_singleton {c : Char}
    (plain : c ∉ ['[', ']', '!', '\\', tick, '&', '<', '*', '_', '~', '^']) : Unmarked [c] where
  plain d member mark := by
    rw [List.mem_singleton.mp member] at mark
    exact plain (List.mem_append_left ['^'] mark)
  caret first := by
    rw [Option.some.inj first] at plain
    exact plain (by decide)
  unbroken inside := absurd inside.length_le (by simp)

theorem unresolved_reported_letters :
    let scope : Scope := ⟨.wordInternalLiteral, .empty, []⟩
    Unmarked ['a'] ∧ Unmarked ['l'] ∧ ¬ Text.isBlank ['l'] ∧ scope.target? ['l'] = none ∧
      (readInline scope "[a][l]".toList (.start [])).2.warnings = [.unresolved .link ['l']] ∧
      (readInline scope "![a][l]".toList (.start [])).2.warnings =
        [.unresolved .link ['l'], .unresolved .link ['l']] := by
  intro scope
  have a : Unmarked ['a'] := unmarked_singleton (by decide)
  have l : Unmarked ['l'] := unmarked_singleton (by decide)
  have undefined : scope.target? ['l'] = none := by decide +kernel
  obtain ⟨link, image⟩ :=
    (unresolved_reported_iff scope (.start [])).1 ['a'] ['l'] a l (by decide) undefined
  exact ⟨a, l, by decide, undefined, congrArg (fun read => read.2.warnings) link,
    congrArg (fun read => read.2.warnings) image⟩

/-- The image is reported twice, the link once. -/
theorem image_reported_twice :
    let scope : Scope := ⟨.wordInternalLiteral, .empty, []⟩
    (readInline scope "![a][l]".toList (.start [])).2.warnings =
        [.unresolved .link ['l'], .unresolved .link ['l']] ∧
      (readInline scope "[a][l]".toList (.start [])).2.warnings = [.unresolved .link ['l']] ∧
      (readInline scope "![ <b title=\"\x60\"> ![y\x60] [m]".toList
        (.start [])).2.warnings.length = 4 ∧
      "![ <b title=\"\x60\"> ![y\x60] [m]".toList.count '[' = 3 := by
  refine ⟨?_, ?_, ?_, ?_⟩ <;> cbv

end CommentMarkup
