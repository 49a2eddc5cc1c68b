import CommentMarkup.Proofs.Block.Prose
import CommentMarkup.Proofs.Definition.Erased
import CommentMarkup.Proofs.Definition.Tables
import CommentMarkup.Render

/-!
# Positions of definitions

Where the definitions of a document stand, and in which order, has no effect on what it is rendered
to, as long as no two of them compete for a key.
-/

namespace CommentMarkup

/-! ### Abbreviations -/

section Terms

variable {terms terms' : List (Text × Text)}

theorem occurrencesFrom_congr (same : termAt? terms = termAt? terms') (prev : Option Char) (pos : Nat) (t : Text) :
    occurrencesFrom terms prev pos t = occurrencesFrom terms' prev pos t := by
  fun_induction occurrencesFrom terms prev pos t with
  | case1 => rw [occurrencesFrom]
  | case2 prev pos c cs absent ih =>
    rw [same] at absent
    rw [occurrencesFrom, absent, ih]
  | case3 prev pos c cs term expansion found n whole ih =>
    rw [same] at found
    rw [occurrencesFrom, found, ih]
    exact (if_pos whole).symm
  | case4 prev pos c cs term expansion found n inside ih =>
    rw [same] at found
    rw [occurrencesFrom, found, ih]
    exact (if_neg inside).symm

mutual

theorem Inline.expand_congr (same : termAt? terms = termAt? terms') (span : Inline) :
    span.expand terms = span.expand terms' := by
  cases span with
  | text t => rw [Inline.expand, Inline.expand, occurrences, occurrencesFrom_congr same, occurrences]
  | emphasis children | strong children | strikethrough children | link _ children =>
    rw [Inline.expand, Inline.expand, expandAbbreviations_congr same children]
  | _ => rfl

theorem expandAbbreviations_congr (same : termAt? terms = termAt? terms') (spans : List Inline) :
    expandAbbreviations terms spans = expandAbbreviations terms' spans := by
  cases spans with
  | nil => rfl
  | cons span spans =>
    rw [expandAbbreviations, expandAbbreviations, Inline.expand_congr same span,
      expandAbbreviations_congr same spans]

end

end Terms

/-! ### Reading -/

structure References.Agree (a b : References) : Prop where
  links : a.link? = b.link?
  footnotes : a.footnote? = b.footnote?
  terms : termAt? a.abbreviations = termAt? b.abbreviations

section Reading

variable {a b : References} (agree : a.Agree b) (mode : EmphasisMode) (headings : HeadingIndex)

include agree

theorem readFootnote_agree : readFootnote ⟨mode, a, headings⟩ = readFootnote ⟨mode, b, headings⟩ := by
  funext t notes
  simp only [readFootnote, footnoteRef?, agree.footnotes]

theorem readLink_agree : readLink ⟨mode, a, headings⟩ = readLink ⟨mode, b, headings⟩ := by
  funext image t notes
  simp only [readLink, Scope.target?, linkSpan, agree.links]

theorem readInline_agree : readInline ⟨mode, a, headings⟩ = readInline ⟨mode, b, headings⟩ := by
  have bracket : readBracket ⟨mode, a, headings⟩ = readBracket ⟨mode, b, headings⟩ := by
    funext t notes
    simp only [readBracket, readFootnote_agree agree, readLink_agree agree]
  funext t notes
  simp only [readInline, bracket, expandAbbreviations_congr agree.terms]

theorem resolveBlocks_agree :
    resolveBlocks ⟨mode, a, headings⟩ = resolveBlocks ⟨mode, b, headings⟩ := by
  have step : resolveStep ⟨mode, a, headings⟩ = resolveStep ⟨mode, b, headings⟩ := by
    funext notes block
    cases block <;> simp only [resolveStep, readInline_agree agree]
  funext notes blocks
  rw [resolveBlocks, resolveBlocks, step]

theorem resolveFootnotesFrom_agree (fence : Text) (fuel next : Nat) (notes : Notes) :
    resolveFootnotesFrom ⟨mode, a, headings⟩ fence fuel next notes =
      resolveFootnotesFrom ⟨mode, b, headings⟩ fence fuel next notes := by
  induction fuel generalizing next notes with
  | zero => rfl
  | succ fuel ih => simp only [resolveFootnotesFrom, resolveBlocks_agree agree, ih]

end Reading

theorem footnoteBound_perm {scope scope' : Scope} (notes : Notes)
    (perm : scope.references.footnotes.Perm scope'.references.footnotes) :
    footnoteBound scope notes = footnoteBound scope' notes := by
  have sources := (perm.map fun entry => FootnoteSource.defined entry.2).append_left
    (notes.footnotes.map PendingFootnote.source)
  exact congrArg₂ (· + ·) sources.length_eq (sumOver_perm FootnoteSource.openingCount sources)

theorem resolveFootnotes_agree {a b : References} (agree : a.Agree b)
    (bodies : a.footnotes.Perm b.footnotes) (mode : EmphasisMode) (headings : HeadingIndex) :
    resolveFootnotes ⟨mode, a, headings⟩ = resolveFootnotes ⟨mode, b, headings⟩ := by
  funext fence notes
  have bound : footnoteBound ⟨mode, a, headings⟩ notes = footnoteBound ⟨mode, b, headings⟩ notes :=
    footnoteBound_perm notes bodies
  rw [resolveFootnotes, resolveFootnotes, resolveFootnotesFrom_agree agree, bound]

/-! ### Documents -/

section Moved

variable {blocks blocks' : List Block} (moved : (definitions blocks).Perm (definitions blocks'))
  (keyed : (tables blocks).Keyed)

include moved

theorem tables_keyed_perm (keyed : (tables blocks).Keyed) : (tables blocks').Keyed where
  links := ((moved.filterMap Block.asLink?).map Prod.fst).nodup_iff.mp keyed.links
  footnotes := ((moved.filterMap Block.asFootnote?).map Prod.fst).nodup_iff.mp keyed.footnotes
  terms := ((moved.filterMap Block.asTerm?).map Prod.fst).nodup_iff.mp keyed.terms

include keyed

theorem collect_agree : (References.collect blocks).1.Agree (References.collect blocks').1 := by
  rw [collect_keyed keyed, collect_keyed (tables_keyed_perm moved keyed)]
  constructor
  · funext label
    exact lookup_perm (moved.filterMap Block.asLink?) keyed.links (normalizeLabel label)
  · funext label
    exact lookup_perm (moved.filterMap Block.asFootnote?) keyed.footnotes (normalizeLabel label)
  · funext t
    exact termAt_perm (moved.filterMap Block.asTerm?) keyed.terms t

theorem collect_footnotes_perm :
    (References.collect blocks).1.footnotes.Perm (References.collect blocks').1.footnotes := by
  rw [collect_keyed keyed, collect_keyed (tables_keyed_perm moved keyed)]
  exact moved.filterMap Block.asFootnote?

theorem collect_warnings :
    (References.collect blocks).2 = (References.collect blocks').2 := by
  rw [collect_keyed keyed, collect_keyed (tables_keyed_perm moved keyed)]

end Moved

theorem rendered_erase (blocks : List Block) (footnotes : List Footnote)
    (warnings : List Warning) :
    Document.rendered ⟨blocks, footnotes, entries blocks, warnings⟩ =
      Document.rendered ⟨erase blocks, footnotes, entries (erase blocks), warnings⟩ := by
  simp only [Document.rendered, Page.render, Page.documentNodes, Page.blocksNodes_erase,
    entries_erase]

/-- Documents that differ in where their definitions stand are rendered alike, or fail alike. -/
theorem resolve_moved {options : Options} {blocks blocks' : List Block}
    (same : erase blocks = erase blocks')
    (moved : (definitions blocks).Perm (definitions blocks')) (keyed : (tables blocks).Keyed) :
    (resolve options blocks).map Document.rendered =
      (resolve options blocks').map Document.rendered := by
  have agree := collect_agree moved keyed
  have bodies := collect_footnotes_perm moved keyed
  have warnings := collect_warnings moved keyed
  have anchored := assignStep_spares.rewrite_same [] same
  unfold resolve HeadingIndex.assign
  dsimp only
  generalize References.collect blocks = collected at agree bodies warnings
  generalize References.collect blocks' = collected' at agree bodies warnings
  generalize rewrite HeadingIndex.assignStep [] blocks = assigned at anchored
  generalize rewrite HeadingIndex.assignStep [] blocks' = assigned' at anchored
  obtain ⟨references, reported⟩ := collected
  obtain ⟨references', reported'⟩ := collected'
  obtain ⟨placed, headings⟩ := assigned
  obtain ⟨placed', headings'⟩ := assigned'
  obtain ⟨unplaced, rfl⟩ := anchored
  dsimp only at agree bodies warnings unplaced ⊢
  subst warnings
  -- from here on both read in one scope
  rw [← resolveBlocks_agree agree, ← resolveFootnotes_agree agree bodies]
  have read := (resolveStep_spares ⟨options.emphasis, references, headings⟩).rewrite_same
    (.start reported) unplaced
  unfold resolveBlocks
  generalize rewrite (resolveStep _) (.start reported) placed = resolved at read
  generalize rewrite (resolveStep _) (.start reported) placed' = resolved' at read
  obtain ⟨shown, notes⟩ := resolved
  obtain ⟨shown', notes'⟩ := resolved'
  obtain ⟨unread, rfl⟩ := read
  dsimp only
  cases (resolveFootnotes _ options.fence notes).1 with
  | error malformed => rfl
  | ok footnotes =>
    dsimp only [Except.map]
    rw [rendered_erase shown, rendered_erase shown', unread]

def scattered (before inside after : List Block) : List Block :=
  before ++ .paragraph (.unread "HTML [a][b] c[^d]".toList) ::
    .list false 1 true [⟨.plain, inside ++ [.paragraph (.unread "x".toList)]⟩] :: after

def linkSample : Block := .referenceDef "b".toList ⟨"/u".toList, none⟩

def secondLinkSample : Block := .referenceDef "C  c".toList ⟨"/v".toList, none⟩

def termSample : Block := .abbreviationDef "HTML".toList "markup".toList

def noteSample : Block := .footnoteDef "d".toList [.paragraph (.unread "HTML [e][B]".toList)]

def scatteredPair : List Block × List Block :=
  (scattered [linkSample, secondLinkSample] [termSample] [noteSample],
    scattered [noteSample, secondLinkSample] [linkSample] [termSample])

theorem resolve_moved_scattered :
    erase scatteredPair.1 = erase scatteredPair.2 ∧
    (definitions scatteredPair.1).Perm (definitions scatteredPair.2) ∧
    (tables scatteredPair.1).Keyed ∧
    (resolve .default scatteredPair.1).map Document.rendered =
      (resolve .default scatteredPair.2).map Document.rendered := by
  have same : erase scatteredPair.1 = erase scatteredPair.2 := rfl
  have last : [linkSample, secondLinkSample, termSample, noteSample].Perm
      (noteSample :: [linkSample, secondLinkSample, termSample]) :=
    List.perm_append_singleton noteSample [linkSample, secondLinkSample, termSample]
  have moved : (definitions scatteredPair.1).Perm (definitions scatteredPair.2) :=
    last.trans ((List.Perm.swap secondLinkSample linkSample [termSample]).cons noteSample)
  have apart : [normalizeLabel "b".toList, normalizeLabel "C  c".toList].Nodup := by
    decide +kernel
  have keyed : (tables scatteredPair.1).Keyed :=
    ⟨apart, List.nodup_singleton _, List.nodup_singleton _⟩
  exact ⟨same, moved, keyed, resolve_moved same moved keyed⟩

end CommentMarkup
